import Mathlib.Data.List.TakeDrop
import PipelineSql.Proofs.Numeral
import PipelineSql.Render

/-!
# Elements by position

A step of a path takes the elements between two subscripts. What is written is read back here as a
reader of SQL/JSON paths does: `last` is the last element, positions outside the array are ignored,
and no number is above the greatest. A step for constant positions is compared with the elements that
are asked for, and with the element rows that a computed position keeps.
-/

namespace PipelineSql

variable {α : Type}

/-! ## Steps of a path -/

namespace Subscript

/-- The position in an array of so many elements. It may be outside the array. -/
def position (length : Nat) : Subscript → Int
  | .index n => n
  | .fromLast n => length - 1 - n

/-- The subscript as it is written. -/
def clamped : Subscript → Subscript
  | .index n => .index (min n greatest)
  | .fromLast n => .fromLast (min n greatest)

/-- The number that digits stand for. -/
def number? (cs : List Char) : Option Nat :=
  if cs ≠ [] ∧ cs.all Char.isDigit then some (Nat.ofDigitChars 10 cs 0) else none

/-- The subscript that a text stands for: a number, `last`, or `last` less a number. -/
def read? (cs : List Char) : Option Subscript :=
  if cs.take 4 = "last".toList then
    match cs.drop 4 with
    | [] => some (.fromLast 0)
    | '-' :: ds => (number? ds).map .fromLast
    | _ => none
  else (number? cs).map .index

/-- The first and the last position of a step `[s]` or `[s to t]`. -/
def readStep? (step : String) : Option (Subscript × Subscript) :=
  match step.toList with
  | '[' :: cs =>
    let inside := cs.takeWhile (· ≠ ']')
    let low := inside.takeWhile (· ≠ ' ')
    let rest := inside.dropWhile (· ≠ ' ')
    if cs.dropWhile (· ≠ ']') ≠ [']'] then none
    else if rest = [] then do
      let s ← read? low
      some (s, s)
    else if rest.take 4 = " to ".toList then do
      some (← read? low, ← read? (rest.drop 4))
    else none
  | _ => none

/-- The elements from one position to another. -/
def between (low high : Subscript) (xs : List α) : List α :=
  (xs.zipIdx.filter fun x =>
    low.position xs.length ≤ x.2 ∧ (x.2 : Int) ≤ high.position xs.length).map Prod.fst

/-- The elements that a step takes; none if it is no step. -/
def taken? (step : String) (xs : List α) : Option (List α) :=
  (readStep? step).map fun (low, high) => between low high xs

/-! ## Reading what is written -/

lemma number?_repr (n : Nat) : number? (Nat.repr n).toList = some n := by
  obtain ⟨hne, hdigits⟩ := Digits.repr n
  rw [number?, if_pos ⟨hne, List.all_eq_true.2 hdigits⟩, Nat.toList_repr,
    Nat.ofDigitChars_ten_toDigits]

/-- Digits do not spell `last`. -/
lemma take_repr_ne_last (n : Nat) : (Nat.repr n).toList.take 4 ≠ "last".toList := by
  intro h
  have hl : 'l' ∈ (Nat.repr n).toList.take 4 := h ▸ by decide
  exact absurd ((Digits.repr n).isDigit _ (List.mem_of_mem_take hl)) (by decide)

lemma toList_text_fromLast (n : Nat) : (fromLast (n + 1)).text.toList =
    "last".toList ++ '-' :: (Nat.repr (min (n + 1) greatest)).toList := by
  show ("last-" ++ Nat.repr (min (n + 1) greatest)).toList = _
  rw [String.toList_append]
  rfl

/-- A subscript is read as it was written. -/
lemma read?_text (s : Subscript) : read? s.text.toList = some s.clamped := by
  cases s with
  | index n =>
    show read? (Nat.repr (min n greatest)).toList = _
    rw [read?, if_neg (take_repr_ne_last _), number?_repr]
    rfl
  | fromLast n =>
    cases n with
    | zero => rfl
    | succ n =>
      rw [toList_text_fromLast]
      show (number? (Nat.repr (min (n + 1) greatest)).toList).map fromLast = _
      rw [number?_repr]
      rfl

/-- No subscript has a blank or ends a step. -/
lemma isPlain_text (s : Subscript) : ∀ c ∈ s.text.toList, c ≠ ']' ∧ c ≠ ' ' := by
  have hdigits (n : Nat) : ∀ c ∈ (Nat.repr n).toList, c ≠ ']' ∧ c ≠ ' ' := by
    intro c hc
    have := (Digits.repr n).isDigit c hc
    constructor <;> (rintro rfl; exact absurd this (by decide))
  cases s with
  | index n => exact hdigits _
  | fromLast n =>
    cases n with
    | zero => simp [text]
    | succ n =>
      rw [toList_text_fromLast]
      exact List.forall_mem_append.2 ⟨by simp, List.forall_mem_cons.2 ⟨by decide, hdigits _⟩⟩

/-- A text without a character ends where the character comes first. -/
lemma span_ne {c : Char} {cs r : List Char} (h : ∀ x ∈ cs, x ≠ c) (hr : ∀ x ∈ r.head?, x = c) :
    (cs ++ r).takeWhile (· ≠ c) = cs ∧ (cs ++ r).dropWhile (· ≠ c) = r :=
  takeWhile_append_head (fun x hx => decide_eq_true (h x hx)) fun x hx => by simp [hr x hx]

/-- A step to one position. -/
lemma readStep?_position (s : Subscript) :
    readStep? s!"[{s.text}]" = some (s.clamped, s.clamped) := by
  have hlist : s!"[{s.text}]".toList = '[' :: (s.text.toList ++ [']']) := by
    show ("[" ++ s.text ++ "]").toList = _
    simp [String.toList_append]
  obtain ⟨hinside, hend⟩ := span_ne (r := [']']) (fun c hc => (s.isPlain_text c hc).1) (by simp)
  obtain ⟨hlow, hrest⟩ := span_ne (r := []) (fun c hc => (s.isPlain_text c hc).2) (by simp)
  rw [List.append_nil] at hlow hrest
  rw [readStep?, hlist]
  simp only [hinside, hend, hlow, hrest, read?_text]
  rfl

/-- A step to a range of positions. -/
lemma readStep?_range (s t : Subscript) :
    readStep? s!"[{s.text} to {t.text}]" = some (s.clamped, t.clamped) := by
  have hlist : s!"[{s.text} to {t.text}]".toList =
      '[' :: ((s.text.toList ++ (" to ".toList ++ t.text.toList)) ++ [']']) := by
    show ("[" ++ s.text ++ " to " ++ t.text ++ "]").toList = _
    simp [String.toList_append]
  have hplain : ∀ c ∈ s.text.toList ++ (" to ".toList ++ t.text.toList), c ≠ ']' := by
    refine List.forall_mem_append.2 ⟨fun c hc => (s.isPlain_text c hc).1, ?_⟩
    exact List.forall_mem_append.2 ⟨by simp, fun c hc => (t.isPlain_text c hc).1⟩
  obtain ⟨hinside, hend⟩ := span_ne (r := [']']) hplain (by simp)
  obtain ⟨hlow, hrest⟩ := span_ne (r := " to ".toList ++ t.text.toList)
    (fun c hc => (s.isPlain_text c hc).2) (by simp)
  have hhigh : (" to ".toList ++ t.text.toList).drop 4 = t.text.toList := rfl
  rw [readStep?, hlist]
  simp only [hinside, hend, hlow, hrest, hhigh, read?_text]
  rfl

/-! ## Windows of an array -/

/-- The elements whose numbers are between two bounds, where the first element has the given one. -/
lemma map_filter_zipIdx (xs : List α) (start : Nat) (low high : Int) :
    ((xs.zipIdx start).filter fun x => low ≤ x.2 ∧ (x.2 : Int) ≤ high).map Prod.fst =
      (xs.drop (low - start).toNat).take (high + 1 - max low start).toNat := by
  induction xs generalizing start with
  | nil => simp
  | cons x xs ih =>
    rw [List.zipIdx_cons, List.filter_cons]
    by_cases h : low ≤ (start : Int) ∧ (start : Int) ≤ high
    · have hdrop : (low - start).toNat = 0 := by omega
      have hdrop' : (low - (start + 1 : Nat)).toNat = 0 := by omega
      have htake : (high + 1 - max low start).toNat =
          (high + 1 - max low (start + 1 : Nat)).toNat + 1 := by omega
      rw [if_pos (by simpa using h), List.map_cons, ih, hdrop, hdrop', htake]
      rfl
    · rw [if_neg (by simpa using h), ih]
      by_cases hlow : low ≤ (start : Int)
      · have htake : (high + 1 - max low start).toNat = 0 := by omega
        have htake' : (high + 1 - max low (start + 1 : Nat)).toNat = 0 := by omega
        rw [htake, htake', List.take_zero, List.take_zero]
      · have hdrop : (low - start).toNat = (low - (start + 1 : Nat)).toNat + 1 := by omega
        have hmax : max low start = max low (start + 1 : Nat) := by omega
        rw [hdrop, hmax, List.drop_succ_cons]

lemma between_eq_take_drop (low high : Subscript) (xs : List α) :
    between low high xs = (xs.drop (low.position xs.length).toNat).take
      (high.position xs.length + 1 - max (low.position xs.length) 0).toNat := by
  rw [between, map_filter_zipIdx]
  simp

/-- The element with a number, where the first element has the given one. -/
lemma map_filter_zipIdx_eq (xs : List α) (start : Nat) (p : Int) :
    ((xs.zipIdx start).filter fun x => (x.2 : Int) = p).map Prod.fst =
      if (start : Int) ≤ p then xs[(p - start).toNat]?.toList else [] := by
  have heq : (fun x : α × Nat => decide ((x.2 : Int) = p)) =
      fun x => decide (p ≤ x.2 ∧ (x.2 : Int) ≤ p) := by
    funext x
    exact decide_eq_decide.2 (by omega)
  rw [heq, map_filter_zipIdx]
  split
  · next h =>
    have hone : (p + 1 - max p start).toNat = 1 := by omega
    rw [hone, List.take_one, List.head?_drop]
  · next h =>
    have hnone : (p + 1 - max p start).toNat = 0 := by omega
    rw [hnone, List.take_zero]

lemma between_self (s : Subscript) (xs : List α) :
    between s s xs = if 0 ≤ s.position xs.length then
      xs[(s.position xs.length).toNat]?.toList else [] := by
  have h := map_filter_zipIdx_eq xs 0 (s.position xs.length)
  rw [Int.natCast_zero, Int.sub_zero] at h
  rw [← h, between]
  congr 2
  funext x
  exact decide_eq_decide.2 (by omega)

/-- Two windows of an array are the same if they have one start and as many elements. -/
lemma take_drop_congr {xs : List α} {i j m n : Nat}
    (hlength : min m (xs.length - i) = min n (xs.length - j))
    (hstart : i = j ∨ min m (xs.length - i) = 0) :
    (xs.drop i).take m = (xs.drop j).take n := by
  rcases hstart with rfl | hempty
  · rw [List.take_eq_take_iff, List.length_drop, hlength]
  · have hi : ((xs.drop i).take m).length = 0 := by rw [List.length_take, List.length_drop, hempty]
    have hj : ((xs.drop j).take n).length = 0 := by
      rw [List.length_take, List.length_drop, ← hlength, hempty]
    rw [List.length_eq_zero_iff.1 hi, List.length_eq_zero_iff.1 hj]

end Subscript

open Subscript

/-! ## Slices -/

/-- The elements that a slice asks for: the first `count`, or the last if that is negative, or
`count` from the position `skip` on, which is counted from the end if it is negative. -/
def sliced (skip : Option Int) (count : Int) (xs : List α) : List α :=
  match skip with
  | none => if 0 ≤ count then xs.take count.natAbs else xs.drop (xs.length - count.natAbs)
  | some s => (xs.drop (if 0 ≤ s then s.natAbs else xs.length - s.natAbs)).take count.toNat

/-- A slice that is to start further from the end than the array is long, and that takes fewer
elements than that. -/
def Overreaches (skip : Option Int) (count : Int) (length : Nat) : Prop :=
  ∃ s ∈ skip, 0 < count ∧ count < -s ∧ 0 < length ∧ length < -s

/-- The step that is written for a slice; none if it takes nothing. -/
def sliceStep? (skip : Option Int) (count : Int) : Option String :=
  (ofSlice skip count).map fun (low, high) => s!"[{low.text} to {high.text}]"

/-- A part of an array by a step, or an array without elements. -/
def sliceText (step? : Option String) (a : ArraySource) : Fragment :=
  match step? with
  | some step => jsonQuery a.doc (a.step step) true
  | none => Fragment.call "JSON_ARRAY" []

/-- The elements of a part of an array. -/
def sliceElements? (step? : Option String) (xs : List α) : Option (List α) :=
  match step? with
  | some step => taken? step xs
  | none => some []

/-- Constant bounds are written as a step, with nothing beside it. -/
lemma slice_eq_sliceText (array : Reading) {skip : Option Reading} {count : Reading}
    {s : Option Int} {c : Int} (hs : skip.mapM (·.expr.int?) = some s)
    (hc : count.expr.int? = some c) :
    Render.slice array skip count = (do return sliceText (sliceStep? s c) (← array.source)) := by
  unfold Render.slice sliceStep?
  cases skip with
  | none =>
    obtain rfl : none = s := Option.some.inj hs
    simp only [hc]
    cases ofSlice none c <;> rfl
  | some r =>
    obtain ⟨k, hk, rfl⟩ : ∃ k, r.expr.int? = some k ∧ some k = s := by
      simpa [Option.bind_eq_some_iff] using hs
    simp only [hc, hk, Option.map_some]
    cases ofSlice (some k) c <;> rfl

lemma sliceElements?_of_range {s : Option Int} {c : Int} {low high : Subscript}
    (h : ofSlice s c = some (low, high)) (xs : List α) :
    sliceElements? (sliceStep? s c) xs = some (between low.clamped high.clamped xs) := by
  rw [sliceStep?, h]
  show taken? s!"[{low.text} to {high.text}]" xs = _
  rw [taken?, readStep?_range]
  rfl

/-- A slice from the start or from the end asks for what is written. -/
lemma between_of_count {c : Int} {low high : Subscript} (h : ofSlice none c = some (low, high))
    {xs : List α} (hlength : xs.length ≤ greatest) :
    between low.clamped high.clamped xs = sliced none c xs := by
  rw [between_eq_take_drop]
  simp only [ofSlice] at h
  split at h
  · next hc =>
    cases h
    rw [sliced, if_pos (by omega), ← List.drop_zero (l := xs.take _), List.drop_take]
    apply take_drop_congr
    · simp only [clamped, position]
      omega
    · simp [clamped, position]
  · split at h
    · next hc =>
      cases h
      have hall : (xs.drop (xs.length - c.natAbs)).take xs.length = xs.drop (xs.length - c.natAbs) :=
        List.take_of_length_le (by simp)
      rw [sliced, if_neg (by omega), ← hall]
      apply take_drop_congr
      · simp only [clamped, position]
        omega
      · simp only [clamped, position]
        omega
    · cases h

/-- A slice from a position on. It loses elements at its end if it overreaches. -/
lemma between_of_skip {s c : Int} {low high : Subscript} (h : ofSlice (some s) c = some (low, high))
    {xs : List α} (hlength : xs.length ≤ greatest) :
    between low.clamped high.clamped xs <+: sliced (some s) c xs ∧
      (between low.clamped high.clamped xs = sliced (some s) c xs ↔
        ¬Overreaches (some s) c xs.length) := by
  have exact_of {ys : List α} (hys : ys = sliced (some s) c xs)
      (hreach : ¬Overreaches (some s) c xs.length) : ys <+: sliced (some s) c xs ∧
        (ys = sliced (some s) c xs ↔ ¬Overreaches (some s) c xs.length) :=
    ⟨hys ▸ List.prefix_rfl, iff_of_true hys hreach⟩
  rw [between_eq_take_drop]
  simp only [ofSlice] at h
  split at h
  · cases h
  split at h
  · next hc hs =>
    cases h
    refine exact_of ?_ ?_
    · rw [sliced, if_pos hs]
      apply take_drop_congr
      · simp only [clamped, position]
        omega
      · simp only [clamped, position]
        omega
    · rintro ⟨_, ⟨⟩, -, hcount, -⟩
      omega
  · next hc hs =>
    cases h
    by_cases hreach : Overreaches (some s) c xs.length
    · obtain ⟨_, ⟨⟩, hpos, hcount, hne, hover⟩ := id hreach
      -- both start at the first element, and the range ends before the slice does
      have hstart : xs.length - s.natAbs = 0 := by omega
      have hlow : (position xs.length (fromLast (s.natAbs - 1)).clamped).toNat = 0 := by
        simp only [clamped, position]
        omega
      rw [sliced, if_neg hs, hstart, hlow]
      refine ⟨List.take_prefix_take_left (by simp only [clamped, position]; omega), ?_⟩
      refine iff_of_false (fun heq => ?_) (not_not_intro hreach)
      have hlengths := congrArg List.length heq
      rw [List.length_take, List.length_take, List.length_drop] at hlengths
      simp only [clamped, position] at hlengths
      omega
    · refine exact_of ?_ hreach
      have hreach' : ¬(0 < c ∧ c < -s ∧ 0 < xs.length ∧ xs.length < -s) :=
        fun h => hreach ⟨s, rfl, h⟩
      rw [sliced, if_neg hs]
      apply take_drop_congr
      · simp only [clamped, position]
        omega
      · simp only [clamped, position]
        omega

/-- A slice for which no range is written asks for nothing. -/
lemma sliced_of_ofSlice_none {s : Option Int} {c : Int} (h : ofSlice s c = none) (xs : List α) :
    sliced s c xs = [] ∧ ¬Overreaches s c xs.length := by
  cases s with
  | none =>
    have hc : c = 0 := by
      simp only [ofSlice] at h
      split at h
      · cases h
      split at h
      · cases h
      omega
    refine ⟨by simp [sliced, hc], ?_⟩
    rintro ⟨s, ⟨⟩, -⟩
  | some s =>
    have hc : c ≤ 0 := by
      by_contra hc
      simp only [ofSlice, hc, if_false] at h
      split at h <;> cases h
    refine ⟨by rw [sliced, Int.toNat_of_nonpos hc, List.take_zero], ?_⟩
    rintro ⟨s, -, hcount, -⟩
    exact absurd hcount (Int.not_lt.2 hc)

/-- The elements of what is written for a slice: those that it asks for, or the first of them if it
overreaches. -/
lemma sliceElements?_sliceStep? (s : Option Int) (c : Int) {xs : List α}
    (hlength : xs.length ≤ greatest) :
    ∃ ys, sliceElements? (sliceStep? s c) xs = some ys ∧ ys <+: sliced s c xs ∧
      (ys = sliced s c xs ↔ ¬Overreaches s c xs.length) := by
  cases h : ofSlice s c with
  | none =>
    obtain ⟨hnothing, hreach⟩ := sliced_of_ofSlice_none h xs
    refine ⟨[], ?_, List.nil_prefix, iff_of_true hnothing.symm hreach⟩
    rw [sliceStep?, h]
    rfl
  | some range =>
    obtain ⟨low, high⟩ := range
    refine ⟨_, sliceElements?_of_range h xs, ?_⟩
    cases s with
    | none =>
      have heq := between_of_count h hlength
      refine ⟨heq ▸ List.prefix_rfl, iff_of_true heq ?_⟩
      rintro ⟨s, ⟨⟩, -⟩
    | some s => exact between_of_skip h hlength

/-- A slice with constant bounds is written as a part of the array, with nothing beside it. In an
array of any length that subscripts can count the part has the first of the elements that the slice
asks for. It has all of them exactly unless the slice is to start before the array and to stop
before the end. -/
theorem slice_complete_unless_overreaching (array : Reading) (skip : Option Reading)
    (count : Reading) {s : Option Int} {c : Int} (hs : skip.mapM (·.expr.int?) = some s)
    (hc : count.expr.int? = some c) :
    ∃ step?, Render.slice array skip count = (do return sliceText step? (← array.source)) ∧
      ∀ (α : Type) (xs : List α), xs.length < Nat.pow 2 31 →
        ∃ ys, sliceElements? step? xs = some ys ∧ ys <+: sliced s c xs ∧
          (ys = sliced s c xs ↔ ¬Overreaches s c xs.length) := by
  refine ⟨sliceStep? s c, slice_eq_sliceText array hs hc, fun α xs hlength => ?_⟩
  exact sliceElements?_sliceStep? s c (Nat.le_pred_of_lt hlength)

/-- The array at a path. -/
def arrayAt (path : String) : Reading :=
  .ofExpr (.field { path := .ofString path })

/-- A constant. -/
def constantReading (n : Int) : Reading :=
  .ofExpr (.lit (.int n))

/-- `{$slice: ["$items", -3, 2]}` of four elements. -/
theorem slice_before_last_complete :
    ∃ step?, Render.slice (arrayAt "items") (some (constantReading (-3))) (constantReading 2) =
        (do return sliceText step? (← (arrayAt "items").source)) ∧
      sliceElements? step? ["a", "b", "c", "d"] = some ["b", "c"] := by
  obtain ⟨step?, hslice, htaken⟩ := slice_complete_unless_overreaching (arrayAt "items")
    (some (constantReading (-3))) (constantReading 2) (s := some (-3)) (c := 2) rfl rfl
  obtain ⟨ys, hys, -, hall⟩ := htaken String ["a", "b", "c", "d"] (by decide)
  refine ⟨step?, hslice, hys.trans (congrArg some (hall.2 ?_))⟩
  rintro ⟨_, ⟨⟩, -, -, -, hlength⟩
  exact absurd hlength (by decide)

/-- `{$slice: ["$items", -5, 3]}` asks for all of three elements, and what is written has the
first. -/
theorem slice_before_start_loses :
    Render.slice (arrayAt "items") (some (constantReading (-5))) (constantReading 3) =
      (do return sliceText (some "[last-4 to last-2]") (← (arrayAt "items").source)) ∧
    sliceElements? (some "[last-4 to last-2]") ["a", "b", "c"] = some ["a"] ∧
    sliced (some (-5)) 3 ["a", "b", "c"] = ["a", "b", "c"] := by
  have hstep : sliceStep? (some (-5)) 3 = some "[last-4 to last-2]" := by decide
  refine ⟨?_, by decide, by decide⟩
  rw [← hstep]
  exact slice_eq_sliceText _ rfl rfl

/-! ## Single elements -/

/-- The element at a position, which is counted from the end if it is negative. -/
def elementOf? (v : Int) (xs : List α) : Option α :=
  if 0 ≤ v then xs[v.natAbs]? else if v.natAbs ≤ xs.length then xs[xs.length - v.natAbs]? else none

/-- The elements whose rows are numbered `v + 1`. Rows are numbered from 1. -/
def rowsAfter (v : Int) (xs : List α) : List α :=
  ((xs.zipIdx 1).filter fun x => (x.2 : Int) = v + 1).map Prod.fst

/-- A step to an index takes the element that is asked for. -/
lemma taken?_ofIndex (v : Int) {xs : List α} (hlength : xs.length ≤ greatest) :
    taken? s!"[{(ofIndex v).text}]" xs = some (elementOf? v xs).toList := by
  rw [taken?, readStep?_position]
  show some (between _ _ xs) = _
  rw [between_self, elementOf?, ofIndex]
  by_cases hv : 0 ≤ v
  · rw [if_pos hv, if_pos hv]
    show some (if 0 ≤ ((min v.natAbs greatest : Nat) : Int) then
      xs[((min v.natAbs greatest : Nat) : Int).toNat]?.toList else []) = _
    rw [if_pos (Int.natCast_nonneg _), Int.toNat_natCast]
    -- an index above the greatest is past the end, and so is the greatest
    by_cases hg : v.natAbs ≤ greatest
    · rw [Nat.min_eq_left hg]
    · rw [List.getElem?_eq_none (by omega), List.getElem?_eq_none (by omega)]
  · rw [if_neg hv, if_neg hv]
    show some (if 0 ≤ (xs.length : Int) - 1 - (min (v.natAbs - 1) greatest : Nat) then
      xs[((xs.length : Int) - 1 - (min (v.natAbs - 1) greatest : Nat)).toNat]?.toList
      else []) = _
    by_cases hn : v.natAbs ≤ xs.length
    · have hposition : ((xs.length : Int) - 1 - (min (v.natAbs - 1) greatest : Nat)).toNat =
          xs.length - v.natAbs := by omega
      rw [if_pos hn, if_pos (by omega), hposition]
    · rw [if_neg hn, if_neg (by omega)]
      rfl

/-- The row after a number of others is the row of an element that is counted from the start. -/
lemma rowsAfter_eq (v : Int) (xs : List α) :
    rowsAfter v xs = if 0 ≤ v then (elementOf? v xs).toList else [] := by
  rw [rowsAfter, map_filter_zipIdx_eq]
  by_cases hv : 0 ≤ v
  · have hposition : (v + 1 - (1 : Nat)).toNat = v.natAbs := by omega
    rw [if_pos (by omega), if_pos hv, elementOf?, if_pos hv, hposition]
  · rw [if_neg (by omega), if_neg hv]

/-- There is an element exactly at the positions that are not out of range. -/
lemma elementOf?_eq_none_iff (v : Int) (xs : List α) :
    elementOf? v xs = none ↔ v < -xs.length ∨ xs.length ≤ v := by
  unfold elementOf?
  split
  · rw [List.getElem?_eq_none_iff]
    omega
  · split
    · rw [List.getElem?_eq_none_iff]
      omega
    · exact iff_of_true rfl (by omega)

/-- The rows have another element than the step exactly if the position is counted from the end of
an array that has it. -/
lemma rowsAfter_eq_iff (v : Int) (xs : List α) :
    rowsAfter v xs = (elementOf? v xs).toList ↔ ¬(-xs.length ≤ v ∧ v < 0) := by
  rw [rowsAfter_eq]
  by_cases hv : 0 ≤ v
  · rw [if_pos hv]
    exact iff_of_true rfl (by omega)
  · have hnone : [] = (elementOf? v xs).toList ↔ elementOf? v xs = none := by
      cases elementOf? v xs <;> simp
    rw [if_neg hv, hnone, elementOf?_eq_none_iff]
    omega

/-! ## Warnings -/

namespace Render

variable {β : Type} {env : Env}

/-- A computation that records no warning. -/
def Quiet (r : Render α) (env : Env) : Prop :=
  ∀ ⦃e a e'⦄, (r.run env).run e = .ok a e' → e'.warnings = e.warnings

lemma quiet_pure (a : α) : (pure a : Render α).Quiet env := by
  intro e a' e' h
  cases h
  rfl

lemma quiet_bind {r : Render α} {k : α → Render β} (hr : r.Quiet env)
    (hk : ∀ a, (k a).Quiet env) : (r >>= k).Quiet env := by
  intro e b e' h
  have h : ((r.run env) >>= fun a => (k a).run env).run e = .ok b e' := h
  simp only [EStateM.run, bind, EStateM.bind] at h
  split at h
  · next a e₁ ha => exact (hk a h).trans (hr ha)
  · cases h

lemma quiet_read : (read : Render Env).Quiet env := by
  intro e a e' h
  cases h
  rfl

lemma quiet_newAlias (base : String) : (newAlias base).Quiet env := by
  intro e a e' h
  cases h
  rfl

end Render

open Render

/-- A constant position is written as a step. -/
lemma elementAt_eq_jsonValue (array : Reading) {index : Reading} {v : Int}
    (type : Option JsonType) (hv : index.expr.int? = some v) :
    elementAt array index type = (do
      let a ← array.source
      return jsonValue (← read).dialect a.doc (a.step s!"[{(ofIndex v).text}]") type) := by
  simp only [elementAt, hv]

/-- Any other position is compared with the numbers of the element rows. -/
lemma elementAt_eq_overElements (array : Reading) {index : Reading} (type : Option JsonType)
    (hindex : index.expr.int? = none) :
    elementAt array index type = (do
      let a ← array.source
      let d := (← read).dialect
      let label ← newAlias "elem"
      let n ← index.number
      return overElements d a label (elementValue d label none type) (" WHERE " ++
        (Condition.relation .eq (Fragment.column label "rn") (n ++ " + 1")).fragment)) := by
  have htest (label : String) (n : Fragment) :
      (" WHERE " ++ Fragment.column label "rn" ++ " = " ++ n ++ " + 1" : Fragment) = " WHERE " ++
        (Condition.relation .eq (Fragment.column label "rn") (n ++ " + 1")).fragment := by
    rw [Condition.fragment]
    simp only [List.append_assoc]
    rfl
  simp only [elementAt, hindex, htest]

/-- An element by a constant position is written as a step, one by any other as a query of the row
that follows so many others. The step takes the element that is asked for in every array that
subscripts can count. The row has the same element exactly unless the position is counted from the
end of an array that has it. Neither has an element if the position is out of range, and neither
records a warning. -/
theorem constant_element_is_computed_unless_from_end (array index computed : Reading)
    (type : Option JsonType) {v : Int} (hv : index.expr.int? = some v)
    (hcomputed : computed.expr.int? = none) :
    ∃ step,
      elementAt array index type = (do
        let a ← array.source
        return jsonValue (← read).dialect a.doc (a.step step) type) ∧
      elementAt array computed type = (do
        let a ← array.source
        let d := (← read).dialect
        let label ← newAlias "elem"
        let n ← computed.number
        return overElements d a label (elementValue d label none type) (" WHERE " ++
          (Condition.relation .eq (Fragment.column label "rn") (n ++ " + 1")).fragment)) ∧
      (∀ env, array.source.Quiet env → (elementAt array index type).Quiet env ∧
        (computed.number.Quiet env → (elementAt array computed type).Quiet env)) ∧
      ∀ (α : Type) (xs : List α), xs.length < Nat.pow 2 31 →
        taken? step xs = some (elementOf? v xs).toList ∧
        (taken? step xs = some (rowsAfter v xs) ↔ ¬(-xs.length ≤ v ∧ v < 0)) ∧
        (v < -xs.length ∨ xs.length ≤ v → taken? step xs = some [] ∧ rowsAfter v xs = []) := by
  have hstep := elementAt_eq_jsonValue array type hv
  have hrows := elementAt_eq_overElements array type hcomputed
  refine ⟨_, hstep, hrows, fun env harray => ⟨?_, fun hnumber => ?_⟩, fun α xs hlength => ?_⟩
  · rw [hstep]
    exact quiet_bind harray fun _ => quiet_bind quiet_read fun _ => quiet_pure _
  · rw [hrows]
    exact quiet_bind harray fun _ => quiet_bind quiet_read fun _ =>
      quiet_bind (quiet_newAlias _) fun _ => quiet_bind hnumber fun _ => quiet_pure _
  · have htaken := taken?_ofIndex v (Nat.le_pred_of_lt hlength)
    have hagree := rowsAfter_eq_iff v xs
    refine ⟨htaken, ?_, fun hout => ?_⟩
    · rw [htaken, Option.some_inj, eq_comm]
      exact hagree
    have hnone := (elementOf?_eq_none_iff v xs).2 hout
    rw [htaken, hagree.2 (by omega), hnone]
    exact ⟨rfl, rfl⟩

/-- The second of two elements. -/
theorem second_element_computed :
    ∃ step, taken? step ["a", "b"] = some ["b"] ∧ rowsAfter 1 ["a", "b"] = ["b"] ∧
      elementAt (arrayAt "items") (constantReading 1) none = (do
        let a ← (arrayAt "items").source
        return jsonValue (← read).dialect a.doc (a.step step) none) := by
  obtain ⟨step, hstep, -, -, htaken⟩ := constant_element_is_computed_unless_from_end
    (arrayAt "items") (constantReading 1) (arrayAt "i") none (v := 1) rfl rfl
  obtain ⟨hb, -⟩ := htaken String ["a", "b"] (by decide)
  exact ⟨step, hb, by decide, hstep⟩

/-- The last of two elements: the step takes it, no row has it, and nothing is said of that. -/
theorem last_element_not_computed :
    taken? "[last]" ["a", "b"] = some ["b"] ∧ rowsAfter (-1) ["a", "b"] = [] ∧
    elementAt (arrayAt "items") (constantReading (-1)) none = (do
      let a ← (arrayAt "items").source
      return jsonValue (← read).dialect a.doc (a.step "[last]") none) ∧
    ∀ env, (elementAt (arrayAt "items") (arrayAt "i") none).Quiet env := by
  have hlast : s!"[{(ofIndex (-1)).text}]" = "[last]" := by decide
  refine ⟨by decide, by decide, ?_, fun env e a e' h => ?_⟩
  · rw [← hlast]
    exact elementAt_eq_jsonValue _ none rfl
  · cases h
    rfl

end PipelineSql
