/-!
# Thread names

A name lives in a field of sixteen bytes and keeps at most fifteen bytes of text, cut where a
character ends. The rest of the field is zero, so two names are equal when their fields are.
-/

namespace RoundRobin

/-- A name as a thread carries it. -/
structure ThreadName where
  /-- The text's bytes, padded with zeros to the size of the field. -/
  field : List UInt8
  /-- How many of the bytes are text. -/
  length : Nat
deriving DecidableEq, Repr

namespace ThreadName

/-- Bytes of the field. -/
def fieldSize : Nat := 16

/-- Most bytes of text. -/
def maxLength : Nat := 15

/-- UTF-8 bytes of a text. -/
def encode (s : String) : List UInt8 := s.toUTF8.data.toList

/-- The text of UTF-8 bytes, if they are valid. -/
def decode? (bytes : List UInt8) : Option String := String.fromUTF8? ⟨bytes.toArray⟩

/-- Whether a cut before byte `i` splits no character: the text ends there, or the byte there does
not continue one. -/
def isBoundary (bytes : List UInt8) (i : Nat) : Bool :=
  match bytes[i]? with
  | none => i == bytes.length
  | some b => i == 0 || b &&& 0xc0 != 0x80

/-- The last place at or before `i` where the bytes may be cut. -/
def lastBoundary (bytes : List UInt8) : Nat → Nat
  | 0 => 0
  | i + 1 => if isBoundary bytes (i + 1) then i + 1 else lastBoundary bytes i

/-- The name that keeps as much of `s` as fits. -/
def ofString (s : String) : ThreadName :=
  let bytes := encode s
  let cut := lastBoundary bytes (min bytes.length maxLength)
  { field := bytes.take cut ++ List.replicate (fieldSize - cut) 0, length := cut }

/-- The text of a name. -/
def toString (name : ThreadName) : String :=
  (decode? (name.field.take name.length)).getD ""

theorem lastBoundary_le (bytes : List UInt8) (i : Nat) : lastBoundary bytes i ≤ i := by
  induction i with
  | zero => exact Nat.le_refl 0
  | succ i ih =>
    unfold lastBoundary
    split
    · exact Nat.le_refl _
    · exact Nat.le_succ_of_le ih

theorem length_ofString_le (s : String) : (ofString s).length ≤ maxLength :=
  Nat.le_trans (lastBoundary_le _ _) (Nat.min_le_right _ _)

end ThreadName
end RoundRobin
