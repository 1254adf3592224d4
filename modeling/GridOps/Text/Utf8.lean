/-!
Decoding UTF-8, strictly with the place of the first error, or with a replacement character for
every ill-formed part.

An ill-formed part is as long as the longest start of a well-formed sequence that it begins with,
and at least one byte.
-/
namespace GridOps
namespace Utf8

inductive Step
  /-- A character, with the number of bytes after the first. -/
  | char (c : Char) (more : Nat)
  /-- An ill-formed part, with the number of bytes after the first. -/
  | invalid (more : Nat)
  /-- The start of a character that the input ends within. -/
  | truncated
deriving DecidableEq, Repr

/-- Where decoding failed: after `validUpTo` bytes, at a part of the given length, or at the cut
end of the input. -/
structure Error where
  validUpTo : Nat
  length? : Option Nat
deriving DecidableEq, Repr

namespace Error

def message (e : Error) : String :=
  match e.length? with
  | some n => s!"invalid utf-8 sequence of {n} bytes from index {e.validUpTo}"
  | none => s!"incomplete utf-8 byte sequence from index {e.validUpTo}"

end Error

def tail (b : UInt8) : Nat := b.toNat % 64

def continues (b : UInt8) : Bool := 0x80 ≤ b && b ≤ 0xBF

/-- Which second bytes may follow a first byte of a character of three or four bytes. -/
def secondAllowed (first second : UInt8) : Bool :=
  if first = 0xE0 then 0xA0 ≤ second && second ≤ 0xBF
  else if first = 0xED then 0x80 ≤ second && second ≤ 0x9F
  else if first = 0xF0 then 0x90 ≤ second && second ≤ 0xBF
  else if first = 0xF4 then 0x80 ≤ second && second ≤ 0x8F
  else continues second

def step (b : UInt8) (rest : List UInt8) : Step :=
  if b < 0x80 then .char (Char.ofNat b.toNat) 0
  else if 0xC2 ≤ b ∧ b ≤ 0xDF then
    match rest with
    | [] => .truncated
    | b1 :: _ =>
      if continues b1 then .char (Char.ofNat (b.toNat % 32 * 64 + tail b1)) 1 else .invalid 0
  else if 0xE0 ≤ b ∧ b ≤ 0xEF then
    match rest with
    | [] => .truncated
    | b1 :: rest =>
      if secondAllowed b b1 then
        match rest with
        | [] => .truncated
        | b2 :: _ =>
          if continues b2 then
            .char (Char.ofNat ((b.toNat % 16 * 64 + tail b1) * 64 + tail b2)) 2
          else .invalid 1
      else .invalid 0
  else if 0xF0 ≤ b ∧ b ≤ 0xF4 then
    match rest with
    | [] => .truncated
    | b1 :: rest =>
      if secondAllowed b b1 then
        match rest with
        | [] => .truncated
        | b2 :: rest =>
          if continues b2 then
            match rest with
            | [] => .truncated
            | b3 :: _ =>
              if continues b3 then
                .char (Char.ofNat
                  (((b.toNat % 8 * 64 + tail b1) * 64 + tail b2) * 64 + tail b3)) 3
              else .invalid 2
          else .invalid 1
      else .invalid 0
  else .invalid 0

/-- Decodes bytes that must be well formed; `start` bytes stood before them. -/
def decodeFrom (start : Nat) : List UInt8 → Except Error (List Char)
  | [] => .ok []
  | b :: rest =>
    match step b rest with
    | .char c more => do return c :: (← decodeFrom (start + more + 1) (rest.drop more))
    | .invalid more => .error ⟨start, some (more + 1)⟩
    | .truncated => .error ⟨start, none⟩
termination_by bytes => bytes.length
decreasing_by simp only [List.length_drop, List.length_cons]; omega

def decode (bytes : List UInt8) : Except Error (List Char) := decodeFrom 0 bytes

/-- The character that stands for an ill-formed part. -/
def replacement : Char := '\uFFFD'

/-- Decodes any bytes, with one replacement character for each ill-formed part. -/
def decodeLossy : List UInt8 → List Char
  | [] => []
  | b :: rest =>
    match step b rest with
    | .char c more => c :: decodeLossy (rest.drop more)
    | .invalid more => replacement :: decodeLossy (rest.drop more)
    | .truncated => [replacement]
termination_by bytes => bytes.length
decreasing_by all_goals simp only [List.length_drop, List.length_cons]; omega

end Utf8
end GridOps
