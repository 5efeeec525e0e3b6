import Worksheet.Xml.Charset.Registry
import Worksheet.Xml.Declaration
import Worksheet.Xml.Name

/-!
# From bytes to characters

The bytes of a document are read in the encoding that their first bytes show and that its
declaration may name. `read` gives the characters behind the declaration, with line ends unified.
-/

namespace Worksheet.Xml

/-- What is wrong with the encoding that a document names. -/
inductive EncodingFault where
  | unknown
  | multibyte
  | undecodable
  | undecodableBytes
deriving Repr, DecidableEq

/-- Why a document cannot be read. -/
inductive Fault where
  | malformed
  | encoding (fault : EncodingFault)
deriving Repr, DecidableEq

/-- The text of a document behind its declaration. -/
structure Source where
  script : Script
  standalone : Bool
  chars : List Char

namespace Source

/-- The width of the units that a text is made of, and the order of their bytes. -/
inductive Units where
  | octets
  | bigEndian
  | littleEndian
deriving Repr, DecidableEq

/-- The units of a document as its first bytes show them, and the bytes behind the byte order
mark. -/
def detect : List UInt8 → Units × List UInt8
  | 0xef :: 0xbb :: 0xbf :: rest => (.octets, rest)
  | 0xfe :: 0xff :: rest => (.bigEndian, rest)
  | 0xff :: 0xfe :: rest => (.littleEndian, rest)
  | 0x00 :: rest => (.bigEndian, 0x00 :: rest)
  | a :: 0x00 :: rest => (.littleEndian, a :: 0x00 :: rest)
  | bytes => (.octets, bytes)

/-- The units of two bytes each. A single byte at the end makes no unit. -/
def pairs (combine : UInt8 → UInt8 → Nat) : List UInt8 → List Nat
  | a :: b :: rest => combine a b :: pairs combine rest
  | _ => []

/-- The values of the units. -/
def values : Units → List UInt8 → List Nat
  | .octets, bytes => bytes.map UInt8.toNat
  | .bigEndian, bytes => pairs (fun a b => 256 * a.toNat + b.toNat) bytes
  | .littleEndian, bytes => pairs (fun a b => a.toNat + 256 * b.toNat) bytes

/-- The characters of units of two bytes. A leading surrogate takes ten bits from the unit behind
it. -/
def decodeWide : List Nat → Option (List Char)
  | [] => some []
  | [u] => if 0xd800 ≤ u ∧ u < 0xe000 then none else some [Char.ofNat u]
  | u :: v :: rest =>
    if 0xd800 ≤ u ∧ u < 0xdc00 then
      (decodeWide rest).map (Char.ofNat (0x10000 + 0x400 * (u % 0x400) + v % 0x400) :: ·)
    else if 0xdc00 ≤ u ∧ u < 0xe000 then none
    else (decodeWide (v :: rest)).map (Char.ofNat u :: ·)

/-- The characters of bytes that are a character each. -/
def decodeBytewise (upper missing : List Char) (bytes : List UInt8) : Option (List Char) :=
  bytes.mapM fun b =>
    let c := if b < 0x80 then Char.ofNat b.toNat else upper.getD (b.toNat - 0x80) '\ufffd'
    if c = '\ufffd' ∨ c ∈ missing then none else some c

/-- The characters of bytes in UTF-8. -/
def decodeUtf8 (bytes : List UInt8) : Option (List Char) :=
  (String.fromUTF8? ⟨bytes.toArray⟩).map String.toList

/-- An encoding: how bytes are read, and whether the signs among the first 256 characters are
letters in it. -/
structure Encoding where
  decode : List UInt8 → Option (List Char)
  script : Script

/-- The encodings with units of two bytes. -/
def wide (units : Units) : Encoding where
  decode bytes := if bytes.length % 2 = 0 then decodeWide (values units bytes) else none
  script := ⟨true⟩

/-- The encoding of a document that names none. -/
def implied : Units → Encoding
  | .octets => ⟨decodeUtf8, .plain⟩
  | units => wide units

/-- The encoding that a document names, given the units it is made of. -/
def named (units : Units) (name : List Char) : Except Fault Encoding :=
  let octets (encoding : Encoding) : Except Fault Encoding :=
    if units = .octets then .ok encoding else .error .malformed
  match String.ofList (name.map Char.toUpper) with
  | "UTF-8" => octets ⟨decodeUtf8, .plain⟩
  | "US-ASCII" => octets ⟨decodeBytewise Charset.noUpper [], .plain⟩
  | "ISO-8859-1" => octets ⟨decodeBytewise Charset.sameUpper [], ⟨true⟩⟩
  | "UTF-16" => if units = .octets then .error .malformed else .ok (wide units)
  | "UTF-16BE" => if units = .bigEndian then .ok (wide units) else .error .malformed
  | "UTF-16LE" => if units = .littleEndian then .ok (wide units) else .error .malformed
  | _ =>
    match Charset.find? name with
    | some (.bytewise upper missing) => octets ⟨decodeBytewise upper missing, .plain⟩
    | some .unusable => .error .malformed
    | some .multibyte => .error (.encoding .multibyte)
    | some .undecodable => .error (.encoding .undecodable)
    | some .undecodableBytes => .error (.encoding .undecodableBytes)
    | none => .error (.encoding .unknown)

/-- The bytes of so many units. -/
def unitBytes : Units → Nat → Nat
  | .octets, n => n
  | _, n => 2 * n

/-- Reads the bytes of a document up to the end of its declaration, and the characters behind it. -/
def read (bytes : List UInt8) : Except Fault Source :=
  let (units, bytes) := detect bytes
  let start := (values units bytes).map Char.ofNat
  match Declaration.scan? start with
  | none => .error .malformed
  | some (declaration, rest) => do
    let encoding ← match declaration.bind Declaration.encoding with
      | some name => named units name
      | none => .ok (implied units)
    match encoding.decode (bytes.drop (unitBytes units (start.length - rest.length))) with
    | some chars =>
      if chars.all isChar then
        .ok ⟨encoding.script, (declaration.map Declaration.standalone).getD false, unifyLines chars⟩
      else .error .malformed
    | none => .error .malformed

end Source
end Worksheet.Xml
