import RoundRobin.Word

/-!
# Durations

A length of time in whole nanoseconds. Durations saturate: one that does not fit in 64 bits is the
longest there is.
-/

namespace RoundRobin

/-- A length of time. -/
structure Duration where
  nanos : Nat
  nanos_le : nanos ≤ Word.top
deriving DecidableEq

namespace Duration

/-- The unit in which a duration is given. -/
inductive Scale where
  | nanos
  | micros
  | millis
  | secs
deriving DecidableEq, Repr

/-- Nanoseconds in one of the unit. -/
def Scale.factor : Scale → Nat
  | nanos => 1
  | micros => 1000
  | millis => 1000000
  | secs => 1000000000

/-- `n` nanoseconds, or the longest duration. -/
def ofNanos (n : Nat) : Duration := ⟨Word.saturate n, Word.saturate_le n⟩

/-- `n` of the given unit, or the longest duration. -/
def of (scale : Scale) (n : Nat) : Duration := ofNanos (n * scale.factor)

def zero : Duration := ⟨0, Nat.zero_le _⟩

/-- Whole units in a duration. -/
def inScale (scale : Scale) (d : Duration) : Nat := d.nanos / scale.factor

def add (a b : Duration) : Duration := ofNanos (a.nanos + b.nanos)

instance : Add Duration := ⟨add⟩

instance : LE Duration := ⟨fun a b => a.nanos ≤ b.nanos⟩

instance (a b : Duration) : Decidable (a ≤ b) := inferInstanceAs (Decidable (a.nanos ≤ b.nanos))

/-- The order of two durations. -/
def compare (a b : Duration) : Ordering := Ord.compare a.nanos b.nanos

/-! ## What they do -/

@[ext] theorem ext {a b : Duration} (h : a.nanos = b.nanos) : a = b := by
  cases a; cases b; simp_all

@[simp] theorem nanos_ofNanos (n : Nat) : (ofNanos n).nanos = Word.saturate n := rfl

@[simp] theorem nanos_of (scale : Scale) (n : Nat) :
    (of scale n).nanos = Word.saturate (n * scale.factor) := rfl

@[simp] theorem nanos_add (a b : Duration) :
    (a + b).nanos = Word.saturate (a.nanos + b.nanos) := rfl

@[simp] theorem nanos_zero : zero.nanos = 0 := rfl

end Duration
end RoundRobin
