import Worksheet.Xml.Charset.Tables

/-!
# Names of charsets

A document may name its encoding in many ways: letter case, punctuation and registered aliases vary.
`find?` looks a name up among the known ones and tells what can be done with bytes in that encoding.
-/

namespace Worksheet.Xml.Charset

/-- What can be done with bytes in an encoding. -/
inductive Support where
  /-- Each byte is a character of its own: below 0x80 that of plain text, the missing ones aside,
  and from there on that of the upper half. -/
  | bytewise (upper : List Char) (missing : List Char)
  /-- Each byte is a character of its own, but not as the markup of a document needs it. -/
  | unusable
  /-- Some characters take several bytes. -/
  | multibyte
  /-- Nothing can be read in this encoding. -/
  | undecodable
  /-- Not every byte can be read in this encoding. -/
  | undecodableBytes
deriving DecidableEq

/-- The names of an encoding, and what can be done with it. -/
structure Registered where
  /-- Names in which a point may stand for an underscore. -/
  aliases : List String
  /-- Other names. -/
  names : List String
  support : Support

/-- The known encodings. -/
def registry : List Registered :=
  [
    ⟨["1125", "cp866u", "ibm1125", "ruscii"],
     ["cp1125"],
     .bytewise cp1125 []⟩,
    ⟨["1250", "windows_1250"],
     ["cp1250"],
     .bytewise cp1250 []⟩,
    ⟨["1251", "windows_1251"],
     ["cp1251"],
     .bytewise cp1251 []⟩,
    ⟨["1252", "windows_1252"],
     ["cp1252"],
     .bytewise cp1252 []⟩,
    ⟨["1253", "windows_1253"],
     ["cp1253"],
     .bytewise cp1253 []⟩,
    ⟨["1254", "windows_1254"],
     ["cp1254"],
     .bytewise cp1254 []⟩,
    ⟨["1255", "windows_1255"],
     ["cp1255"],
     .bytewise cp1255 []⟩,
    ⟨["1256", "windows_1256"],
     ["cp1256"],
     .bytewise cp1256 []⟩,
    ⟨["1257", "windows_1257"],
     ["cp1257"],
     .bytewise cp1257 []⟩,
    ⟨["1258", "windows_1258"],
     ["cp1258"],
     .bytewise cp1258 []⟩,
    ⟨["437", "cspc8codepage437", "ibm437"],
     ["cp437"],
     .bytewise cp437 []⟩,
    ⟨["646", "ansi_x3.4_1968", "ansi_x3.4_1986", "ansi_x3_4_1968", "cp367", "cp65001", "csascii",
      "csiso2022jp", "ibm367", "iso2022jp", "iso2022jp_1", "iso2022jp_2", "iso2022jp_2004",
      "iso2022jp_3", "iso2022jp_ext", "iso646_us", "iso_2022_jp", "iso_2022_jp_1", "iso_2022_jp_2",
      "iso_2022_jp_2004", "iso_2022_jp_3", "iso_2022_jp_ext", "iso_646.irv_1991", "iso_ir_6", "u8",
      "us", "us_ascii", "utf", "utf8", "utf8_ucs2", "utf8_ucs4"],
     ["ascii", "iso2022_jp", "iso2022_jp_1", "iso2022_jp_2", "iso2022_jp_2004", "iso2022_jp_3",
      "iso2022_jp_ext", "utf_8", "utf_8_sig"],
     .bytewise noUpper []⟩,
    ⟨["775", "cspc775baltic", "ibm775"],
     ["cp775"],
     .bytewise cp775 []⟩,
    ⟨["850", "cspc850multilingual", "ibm850"],
     ["cp850"],
     .bytewise cp850 []⟩,
    ⟨["852", "cspcp852", "ibm852"],
     ["cp852"],
     .bytewise cp852 []⟩,
    ⟨["855", "csibm855", "ibm855"],
     ["cp855"],
     .bytewise cp855 []⟩,
    ⟨["857", "csibm857", "ibm857"],
     ["cp857"],
     .bytewise cp857 []⟩,
    ⟨["858", "csibm858", "ibm858"],
     ["cp858"],
     .bytewise cp858 []⟩,
    ⟨["860", "csibm860", "ibm860"],
     ["cp860"],
     .bytewise cp860 []⟩,
    ⟨["861", "cp_is", "csibm861", "ibm861"],
     ["cp861"],
     .bytewise cp861 []⟩,
    ⟨["862", "cspc862latinhebrew", "ibm862"],
     ["cp862"],
     .bytewise cp862 []⟩,
    ⟨["863", "csibm863", "ibm863"],
     ["cp863"],
     .bytewise cp863 []⟩,
    ⟨["865", "csibm865", "ibm865"],
     ["cp865"],
     .bytewise cp865 []⟩,
    ⟨["866", "csibm866", "ibm866"],
     ["cp866"],
     .bytewise cp866 []⟩,
    ⟨["869", "cp_gr", "csibm869", "ibm869"],
     ["cp869"],
     .bytewise cp869 []⟩,
    ⟨["8859", "cp819", "csisolatin1", "ibm819", "iso8859", "iso8859_1", "iso_8859_1",
      "iso_8859_1_1987", "iso_ir_100", "l1", "latin", "latin1"],
     ["charmap", "latin_1", "raw_unicode_escape", "unicode_escape"],
     .bytewise sameUpper []⟩,
    ⟨["arabic", "asmo_708", "csisolatinarabic", "ecma_114", "iso_8859_6", "iso_8859_6_1987",
      "iso_ir_127"],
     ["iso8859_6"],
     .bytewise iso88596 []⟩,
    ⟨[],
     ["cp1006"],
     .bytewise cp1006 []⟩,
    ⟨["cp1051", "ibm1051", "r8", "roman8"],
     ["hp_roman8"],
     .bytewise hpRoman8 []⟩,
    ⟨["cp154", "csptcp154", "cyrillic_asian", "pt154"],
     ["ptcp154"],
     .bytewise ptcp154 []⟩,
    ⟨[],
     ["cp720"],
     .bytewise cp720 []⟩,
    ⟨[],
     ["cp737"],
     .bytewise cp737 []⟩,
    ⟨[],
     ["cp856"],
     .bytewise cp856 []⟩,
    ⟨[],
     ["cp874"],
     .bytewise cp874 []⟩,
    ⟨["csisolatin2", "iso_8859_2", "iso_8859_2_1987", "iso_ir_101", "l2", "latin2"],
     ["iso8859_2"],
     .bytewise iso88592 []⟩,
    ⟨["csisolatin3", "iso_8859_3", "iso_8859_3_1988", "iso_ir_109", "l3", "latin3"],
     ["iso8859_3"],
     .bytewise iso88593 []⟩,
    ⟨["csisolatin4", "iso_8859_4", "iso_8859_4_1988", "iso_ir_110", "l4", "latin4"],
     ["iso8859_4"],
     .bytewise iso88594 []⟩,
    ⟨["csisolatin5", "iso_8859_9", "iso_8859_9_1989", "iso_ir_148", "l5", "latin5"],
     ["iso8859_9"],
     .bytewise iso88599 []⟩,
    ⟨["csisolatin6", "iso_8859_10", "iso_8859_10_1992", "iso_ir_157", "l6", "latin6"],
     ["iso8859_10"],
     .bytewise iso885910 []⟩,
    ⟨["csisolatincyrillic", "cyrillic", "iso_8859_5", "iso_8859_5_1988", "iso_ir_144"],
     ["iso8859_5"],
     .bytewise iso88595 []⟩,
    ⟨["csisolatingreek", "ecma_118", "elot_928", "greek", "greek8", "iso_8859_7",
      "iso_8859_7_1987", "iso_ir_126"],
     ["iso8859_7"],
     .bytewise iso88597 []⟩,
    ⟨["csisolatinhebrew", "hebrew", "iso_8859_8", "iso_8859_8_1988", "iso_ir_138"],
     ["iso8859_8"],
     .bytewise iso88598 []⟩,
    ⟨["cskoi8r"],
     ["koi8_r"],
     .bytewise koi8R []⟩,
    ⟨["hz_gb", "hz_gb_2312", "hzgb"],
     ["hz"],
     .bytewise noUpper ['~']⟩,
    ⟨["iso_8859_11", "iso_8859_11_2001", "thai"],
     ["iso8859_11"],
     .bytewise iso885911 []⟩,
    ⟨["iso_8859_13", "l7", "latin7"],
     ["iso8859_13"],
     .bytewise iso885913 []⟩,
    ⟨["iso_8859_14", "iso_8859_14_1998", "iso_celtic", "iso_ir_199", "l8", "latin8"],
     ["iso8859_14"],
     .bytewise iso885914 []⟩,
    ⟨["iso_8859_15", "l9", "latin9"],
     ["iso8859_15"],
     .bytewise iso885915 []⟩,
    ⟨["iso_8859_16", "iso_8859_16_2001", "iso_ir_226", "l10", "latin10"],
     ["iso8859_16"],
     .bytewise iso885916 []⟩,
    ⟨["iso_ir_166", "tis620", "tis_620_0", "tis_620_2529_0", "tis_620_2529_1"],
     ["tis_620"],
     .bytewise tis620 []⟩,
    ⟨[],
     ["koi8_t"],
     .bytewise koi8T []⟩,
    ⟨[],
     ["koi8_u"],
     .bytewise koi8U []⟩,
    ⟨["kz_1048", "rk1048", "strk1048_2002"],
     ["kz1048"],
     .bytewise kz1048 []⟩,
    ⟨["mac_centeuro", "maccentraleurope", "maclatin2"],
     ["mac_latin2"],
     .bytewise macLatin2 []⟩,
    ⟨[],
     ["mac_croatian"],
     .bytewise macCroatian []⟩,
    ⟨["maccyrillic"],
     ["mac_cyrillic"],
     .bytewise macCyrillic []⟩,
    ⟨["macgreek"],
     ["mac_greek"],
     .bytewise macGreek []⟩,
    ⟨["maciceland"],
     ["mac_iceland"],
     .bytewise macIceland []⟩,
    ⟨["macintosh", "macroman"],
     ["mac_roman"],
     .bytewise macRoman []⟩,
    ⟨[],
     ["mac_romanian"],
     .bytewise macRomanian []⟩,
    ⟨["macturkish"],
     ["mac_turkish"],
     .bytewise macTurkish []⟩,
    ⟨[],
     ["palmos"],
     .bytewise palmos []⟩,
    ⟨["037", "1026", "1140", "273", "424", "500", "864", "csibm037", "csibm1026", "csibm273",
      "csibm424", "csibm500", "csibm864", "ebcdic_cp_be", "ebcdic_cp_ca", "ebcdic_cp_ch",
      "ebcdic_cp_he", "ebcdic_cp_nl", "ebcdic_cp_us", "ebcdic_cp_wt", "ibm037", "ibm039",
      "ibm1026", "ibm1140", "ibm273", "ibm424", "ibm500", "ibm864"],
     ["cp037", "cp1026", "cp1140", "cp273", "cp424", "cp500", "cp864", "cp875", "mac_arabic",
      "mac_farsi"],
     .unusable⟩,
    ⟨["932", "936", "949", "950", "big5_hkscs", "big5_tw", "chinese", "cp1361", "cp936", "csbig5",
      "csiso2022kr", "csiso58gb231280", "csshiftjis", "euc_cn", "euc_jis2004", "euccn",
      "eucgb2312_cn", "eucjis2004", "eucjisx0213", "eucjp", "euckr", "gb18030_2000", "gb2312_1980",
      "gb2312_80", "hkscs", "iso2022kr", "iso_2022_kr", "iso_ir_58", "jisx0213", "korean",
      "ks_c_5601", "ks_c_5601_1987", "ks_x_1001", "ksc5601", "ksx1001", "ms1361", "ms932", "ms936",
      "ms949", "ms950", "ms_kanji", "mskanji", "s_jis", "s_jis_2004", "s_jisx0213", "shiftjis",
      "shiftjis2004", "shiftjisx0213", "sjis", "sjis_2004", "sjisx0213", "u16", "u32", "u7",
      "u_jis", "uhc", "ujis", "unicode_1_1_utf_7", "unicodebigunmarked", "unicodelittleunmarked",
      "utf16", "utf32", "utf7", "utf_16be", "utf_16le", "utf_32be", "utf_32le", "x_mac_japanese",
      "x_mac_korean", "x_mac_simp_chinese", "x_mac_trad_chinese"],
     ["big5", "big5hkscs", "cp932", "cp949", "cp950", "euc_jis_2004", "euc_jisx0213", "euc_jp",
      "euc_kr", "gb18030", "gb2312", "gbk", "iso2022_kr", "johab", "shift_jis", "shift_jis_2004",
      "shift_jisx0213", "utf_16", "utf_16_be", "utf_16_le", "utf_32", "utf_32_be", "utf_32_le",
      "utf_7"],
     .multibyte⟩,
    ⟨[],
     ["idna", "undefined"],
     .undecodable⟩,
    ⟨[],
     ["punycode"],
     .undecodableBytes⟩
  ]

/-- A name in lower case in which each run of punctuation has become an underscore. Points are kept,
and punctuation at either end is dropped. -/
def normalize (name : List Char) : List Char :=
  (name.foldl (fun (acc : List Char × Bool) c =>
    if c.isAlphanum || c == '.' then
      (c.toLower :: (if acc.2 && !acc.1.isEmpty then '_' :: acc.1 else acc.1), false)
    else (acc.1, true)) ([], false)).1.reverse

/-- What can be done with the encoding of that name, if it is known. -/
def find? (name : List Char) : Option Support :=
  let plain := normalize name
  let name := String.ofList plain
  let underscored := String.ofList (plain.map fun c => if c = '.' then '_' else c)
  (registry.find? fun r => r.aliases.contains name || r.aliases.contains underscored
    || !plain.contains '.' && r.names.contains name).map Registered.support

end Worksheet.Xml.Charset
