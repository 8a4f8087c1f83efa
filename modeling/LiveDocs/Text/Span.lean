/-!
# Spans of code points

A `Span` is an arithmetic progression of code points, a `Shift` a span together with a distance.
Character classes and case mappings are ascending lists of these, so that a search stops at the
first one that starts above a code point.
-/

namespace LiveDocs.Text

/-- The code points `first`, `first + stride`, and so on up to `last`. -/
structure Span where
  first : Nat
  last : Nat
  stride : Nat

/-- A code point belongs to a span. -/
def Span.contains (s : Span) (n : Nat) : Bool :=
  decide (s.first ≤ n) && decide (n ≤ s.last) && (n - s.first) % s.stride == 0

/-- Searches an ascending list of spans, and stops at the first one that starts above `n`. -/
def searchSpans : List Span → Nat → Bool
  | [], _ => false
  | s :: rest, n => if n < s.first then false else s.contains n || searchSpans rest n

/-- A span whose code points are all mapped by adding `distance`. -/
structure Shift where
  first : Nat
  last : Nat
  stride : Nat
  distance : Int

/-- The code points that a shift maps. -/
def Shift.span (s : Shift) : Span := ⟨s.first, s.last, s.stride⟩

/-- The image of `n` under the first shift of an ascending list that maps it. -/
def searchShifts : List Shift → Nat → Option Nat
  | [], _ => none
  | s :: rest, n =>
    if n < s.first then none
    else if s.span.contains n then some (Int.toNat (n + s.distance))
    else searchShifts rest n

end LiveDocs.Text
