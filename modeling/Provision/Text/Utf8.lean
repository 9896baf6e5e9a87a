/-!
# Reading UTF-8 that may be damaged

`decode` reads bytes as UTF-8 and puts the replacement character in the place of each sequence that
is broken off: the longest run of bytes that still began a character.
-/

namespace Provision.Text.Utf8

def replacement : Char := Char.ofNat 0xFFFD

/-- A character of which some bytes have been read. -/
structure Partial where
  /-- How many bytes are missing. -/
  missing : Nat
  value : Nat
  /-- The range of the next byte. -/
  low : Nat := 0x80
  high : Nat := 0xBF

/-- The first byte of a character: the whole of it, or what must follow. -/
def begin (byte : Nat) : Char ⊕ Partial :=
  if byte < 0x80 then .inl (Char.ofNat byte)
  else if byte < 0xC2 then .inl replacement
  else if byte < 0xE0 then .inr { missing := 1, value := byte - 0xC0 }
  else if byte = 0xE0 then .inr { missing := 2, value := 0, low := 0xA0 }
  else if byte = 0xED then .inr { missing := 2, value := 0xD, high := 0x9F }
  else if byte < 0xF0 then .inr { missing := 2, value := byte - 0xE0 }
  else if byte = 0xF0 then .inr { missing := 3, value := 0, low := 0x90 }
  else if byte < 0xF4 then .inr { missing := 3, value := byte - 0xF0 }
  else if byte = 0xF4 then .inr { missing := 3, value := 4, high := 0x8F }
  else .inl replacement

/-- Reads one more byte: the characters that are finished by it, and the one begun. -/
def next (pending : Option Partial) (byte : Nat) : List Char × Option Partial :=
  let fresh (before : List Char) : List Char × Option Partial :=
    match begin byte with
    | .inl c => (before ++ [c], none)
    | .inr started => (before, some started)
  match pending with
  | none => fresh []
  | some p =>
    if p.low ≤ byte && byte ≤ p.high then
      let value := p.value * 64 + byte % 64
      if p.missing = 1 then ([Char.ofNat value], none)
      else ([], some { missing := p.missing - 1, value })
    else fresh [replacement]

def decodeFrom (pending : Option Partial) : List UInt8 → List Char
  | [] => if pending.isSome then [replacement] else []
  | byte :: rest =>
    let (chars, begun) := next pending byte.toNat
    chars ++ decodeFrom begun rest

def decode (bytes : ByteArray) : String := String.ofList (decodeFrom none bytes.toList)

end Provision.Text.Utf8
