import TypedQuery.Sql.Bytes

/-!
# Percent encoding

Bytes that may not stand in a part of a URL are written as a percent sign and two uppercase
hexadecimal digits.  Which bytes these are depends on the part; bytes outside ASCII and control
characters are always among them.
-/

namespace TypedQuery
namespace Percent

/-- The ASCII characters that are encoded besides control characters. -/
structure EncodeSet where
  chars : List Char

namespace EncodeSet

def controls : EncodeSet := ⟨[]⟩

def fragment : EncodeSet := ⟨[' ', '"', '<', '>', '`']⟩

def query : EncodeSet := ⟨[' ', '"', '#', '<', '>']⟩

def specialQuery : EncodeSet := ⟨'\'' :: query.chars⟩

def path : EncodeSet := ⟨fragment.chars ++ ['#', '?', '\x7b', '\x7d']⟩

def userinfo : EncodeSet := ⟨path.chars ++ ['/', ':', ';', '=', '@', '[', '\\', ']', '^', '|']⟩

def contains (s : EncodeSet) (byte : UInt8) : Bool :=
  byte < 0x20 || byte ≥ 0x7F || s.chars.any fun c => c.toNat == byte.toNat

end EncodeSet

def hexDigit (n : Nat) : Char := ("0123456789ABCDEF".toList[n % 16]?).getD '0'

def encodeByte (s : EncodeSet) (byte : UInt8) : List Char :=
  if s.contains byte then ['%', hexDigit (byte.toNat / 16), hexDigit byte.toNat]
  else [Char.ofNat byte.toNat]

def encode (s : EncodeSet) (cs : List Char) : String :=
  String.ofList ((String.ofList cs).toUTF8.toList.flatMap (encodeByte s))

/-- The bytes of a text; a percent sign with two hexadecimal digits after it stands for the byte
that they spell, and every other one for itself. -/
def decodeBytes : List UInt8 -> List UInt8
  | 37 :: a :: b :: rest =>
      match Hex.digitValue? (Char.ofNat a.toNat), Hex.digitValue? (Char.ofNat b.toNat) with
      | some high, some low => UInt8.ofNat (16 * high + low) :: decodeBytes rest
      | _, _ => 37 :: decodeBytes (a :: b :: rest)
  | byte :: rest => byte :: decodeBytes rest
  | [] => []

def decode? (text : String) : Option String :=
  String.fromUTF8? (ByteArray.mk (decodeBytes text.toUTF8.toList).toArray)

end Percent
end TypedQuery
