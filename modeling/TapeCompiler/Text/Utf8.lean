/-
# Text as bytes

Text is stored as UTF-8. Every text has bytes, but not every run of bytes is a
text. Decoding stops at the first byte that cannot start or continue a
character, and says which bytes were at fault and how.
-/

namespace TapeCompiler.Text

/-- The bytes of a text. -/
def encodeUtf8 (text : String) : List UInt8 :=
  text.toList.flatMap String.utf8EncodeChar

/-- What is wrong with the bytes at fault. -/
inductive Utf8Flaw
  | badStart
  | badContinuation
  | cutShort
  deriving DecidableEq, Repr

/-- The wording of a flaw. -/
def Utf8Flaw.message : Utf8Flaw → String
  | badStart => "invalid start byte"
  | badContinuation => "invalid continuation byte"
  | cutShort => "unexpected end of data"

/-- The bytes at fault: where they start, the first of them, how many they are. -/
structure Utf8Error where
  position : Nat
  first : UInt8
  count : Nat
  flaw : Utf8Flaw
  deriving DecidableEq, Repr

/-- A hexadecimal digit of a byte. -/
def byteHex (byte : UInt8) : String :=
  let digits := Nat.toDigits 16 byte.toNat
  String.ofList (if digits.length < 2 then '0' :: digits else digits)

/-- The wording of a decoding error. -/
def Utf8Error.message (error : Utf8Error) : String :=
  let place :=
    if error.count = 1 then
      "byte 0x" ++ byteHex error.first ++ " in position " ++ toString error.position
    else
      "bytes in position " ++ toString error.position ++ "-" ++
        toString (error.position + error.count - 1)
  "'utf-8' codec can't decode " ++ place ++ ": " ++ error.flaw.message

/-- The six bits that a continuation byte carries. -/
def tailBits (byte : UInt8) : Nat := byte.toNat % 64

/-- Whether a byte continues a character. -/
def isTail (byte : UInt8) : Bool := decide (0x80 ≤ byte) && decide (byte ≤ 0xbf)

/-- Whether a byte may come second behind a given first byte. The bounds keep out longer forms
than needed, halves of surrogate pairs, and numbers beyond the last code point. -/
def isSecond (first second : UInt8) : Bool :=
  isTail second &&
    (first != 0xe0 || decide (0xa0 ≤ second)) && (first != 0xed || decide (second < 0xa0)) &&
    (first != 0xf0 || decide (0x90 ≤ second)) && (first != 0xf4 || decide (second < 0x90))

/-- The number of bytes of a character, told by the first of them. -/
def width? (first : UInt8) : Option Nat :=
  if first < 0x80 then some 1
  -- Continuation bytes, and two bytes that could only start longer forms than needed.
  else if first < 0xc2 then none
  else if first < 0xe0 then some 2
  else if first < 0xf0 then some 3
  else if first < 0xf5 then some 4
  else none

/-- The first character of a run of bytes and what follows it, or the number of bytes at fault
and the flaw. -/
def decodeChar (first : UInt8) (rest : List UInt8) :
    Except (Nat × Utf8Flaw) (Char × List UInt8) :=
  match width? first with
  | none => .error (1, .badStart)
  | some 1 => .ok (Char.ofNat first.toNat, rest)
  | some width =>
    match rest with
    | [] => .error (1, .cutShort)
    | b :: rest =>
      if ¬ isSecond first b then .error (1, .badContinuation)
      else if width = 2 then .ok (Char.ofNat (first.toNat % 32 * 64 + tailBits b), rest)
      else
        match rest with
        | [] => .error (2, .cutShort)
        | c :: rest =>
          if ¬ isTail c then .error (2, .badContinuation)
          else if width = 3 then
            .ok (Char.ofNat ((first.toNat % 16 * 64 + tailBits b) * 64 + tailBits c), rest)
          else
            match rest with
            | [] => .error (3, .cutShort)
            | d :: rest =>
              if ¬ isTail d then .error (3, .badContinuation)
              else
                .ok (Char.ofNat
                  (((first.toNat % 8 * 64 + tailBits b) * 64 + tailBits c) * 64 + tailBits d),
                  rest)

/-- A decoded character takes at least one byte. -/
theorem length_le_of_decodeChar_eq_ok {first : UInt8} {bytes rest : List UInt8} {c : Char}
    (h : decodeChar first bytes = .ok (c, rest)) : rest.length ≤ bytes.length := by
  unfold decodeChar at h
  repeat' split at h
  all_goals first
    | (cases h; done)
    | (injection h with h; injection h with _ h; subst h; simp; try omega)

/-- The characters of a run of bytes behind those decoded already, the latest of which come
first. The position counts bytes. -/
def decodeFrom (position : Nat) (done : List Char) (bytes : List UInt8) :
    Except Utf8Error (List Char) :=
  match bytes with
  | [] => .ok done.reverse
  | first :: rest =>
    match _found : decodeChar first rest with
    | .error (count, flaw) => .error ⟨position, first, count, flaw⟩
    | .ok (c, after) => decodeFrom (position + c.utf8Size) (c :: done) after
termination_by bytes.length
decreasing_by
  have := length_le_of_decodeChar_eq_ok _found
  simp only [List.length_cons]
  omega

/-- The text that a run of bytes encodes. -/
def decodeUtf8 (bytes : List UInt8) : Except Utf8Error String :=
  (decodeFrom 0 [] bytes).map String.ofList

end TapeCompiler.Text
