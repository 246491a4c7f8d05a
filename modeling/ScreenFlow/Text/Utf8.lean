/-!
# UTF-8

Bytes and text. Strict decoding refuses malformed input; lossy decoding puts U+FFFD for every
maximal piece that cannot be continued to a character.
-/

namespace ScreenFlow

abbrev Bytes := List UInt8

namespace Utf8

def encodeChar (c : Char) : Bytes :=
  let n := c.toNat
  if n < 0x80 then [n.toUInt8]
  else if n < 0x800 then [(0xC0 + n / 0x40).toUInt8, (0x80 + n % 0x40).toUInt8]
  else if n < 0x10000 then
    [(0xE0 + n / 0x1000).toUInt8, (0x80 + n / 0x40 % 0x40).toUInt8, (0x80 + n % 0x40).toUInt8]
  else
    [(0xF0 + n / 0x40000).toUInt8, (0x80 + n / 0x1000 % 0x40).toUInt8,
     (0x80 + n / 0x40 % 0x40).toUInt8, (0x80 + n % 0x40).toUInt8]

def encodeChars (cs : List Char) : Bytes := cs.flatMap encodeChar

def encode (s : String) : Bytes := encodeChars s.toList

/-- The leading byte's payload, and the allowed range of each continuation byte after it. -/
def lead? (b : Nat) : Option (Nat × List (Nat × Nat)) :=
  let any := (0x80, 0xBF)
  if b < 0x80 then some (b, [])
  else if 0xC2 ≤ b ∧ b ≤ 0xDF then some (b - 0xC0, [any])
  else if b = 0xE0 then some (0, [(0xA0, 0xBF), any])
  else if b = 0xED then some (0xD, [(0x80, 0x9F), any])
  else if 0xE1 ≤ b ∧ b ≤ 0xEF then some (b - 0xE0, [any, any])
  else if b = 0xF0 then some (0, [(0x90, 0xBF), any, any])
  else if 0xF1 ≤ b ∧ b ≤ 0xF3 then some (b - 0xF0, [any, any, any])
  else if b = 0xF4 then some (4, [(0x80, 0x8F), any, any])
  else none

/-- Reads the continuation bytes that fit; the flag says whether all of them were there. -/
def follow (acc : Nat) : List (Nat × Nat) → Bytes → Bool × Nat × Bytes
  | [], bs => (true, acc, bs)
  | _ :: _, [] => (false, acc, [])
  | r :: rs, b :: bs =>
    if r.1 ≤ b.toNat ∧ b.toNat ≤ r.2 then follow (acc * 0x40 + (b.toNat - 0x80)) rs bs
    else (false, acc, b :: bs)

theorem length_follow (acc : Nat) (rs : List (Nat × Nat)) (bs : Bytes) :
    (Utf8.follow acc rs bs).2.2.length ≤ bs.length := by
  induction rs generalizing acc bs with
  | nil => simp [Utf8.follow]
  | cons r rs ih =>
    cases bs with
    | nil => simp [Utf8.follow]
    | cons b bs =>
      simp only [Utf8.follow]
      split
      · exact Nat.le_succ_of_le (ih _ _)
      · exact Nat.le_refl _

/-- One piece at the front: a character, or `none` for a piece that is no character. -/
def piece (b : UInt8) (bs : Bytes) : Option Char × Bytes :=
  match lead? b.toNat with
  | none => (none, bs)
  | some (payload, ranges) =>
    match Utf8.follow payload ranges bs with
    | (true, n, rest) => (some (Char.ofNat n), rest)
    | (false, _, rest) => (none, rest)

theorem length_piece (b : UInt8) (bs : Bytes) : (piece b bs).2.length ≤ bs.length := by
  unfold piece
  split
  · exact Nat.le_refl _
  · rename_i payload ranges _
    have h := length_follow payload ranges bs
    split <;> simp_all

def decodePieces (bs : Bytes) : List (Option Char) :=
  match bs with
  | [] => []
  | b :: rest =>
    have := length_piece b rest
    (piece b rest).1 :: decodePieces (piece b rest).2
termination_by bs.length
decreasing_by simp only [List.length_cons]; omega

/-- Refuses anything that is not well-formed UTF-8. -/
def decode? (bs : Bytes) : Option String :=
  ((decodePieces bs).mapM id).map String.ofList

/-- Why bytes are no text: what begins at `index` is no character. The length is that of the piece,
unless the bytes end before it could become one. -/
structure Problem where
  index : Nat
  length : Option Nat
deriving DecidableEq, Repr

def Problem.message (p : Problem) : String :=
  match p.length with
  | some n => s!"invalid utf-8 sequence of {n} bytes from index {p.index}"
  | none => s!"incomplete utf-8 byte sequence from index {p.index}"

/-- The problem of the first piece that is no character, `index` bytes being read already. -/
def problem? (index : Nat) (bs : Bytes) : Option Problem :=
  match bs with
  | [] => none
  | b :: rest =>
    have := length_piece b rest
    let after := (piece b rest).2
    let length := rest.length + 1 - after.length
    match (piece b rest).1 with
    | some _ => problem? (index + length) after
    | none => some ⟨index, if (lead? b.toNat).isSome && after.isEmpty then none else some length⟩
termination_by bs.length
decreasing_by simp only [List.length_cons]; omega

/-- Reads well-formed UTF-8, or says where it stops to be that. -/
def decode (bs : Bytes) : Except Problem String :=
  match problem? 0 bs with
  | some p => .error p
  | none => .ok (String.ofList ((decodePieces bs).filterMap id))

def decodeLossy (bs : Bytes) : String :=
  String.ofList ((decodePieces bs).map (·.getD '\uFFFD'))

end Utf8

end ScreenFlow
