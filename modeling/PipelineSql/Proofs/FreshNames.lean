import PipelineSql.Proofs.Reading
import PipelineSql.Proofs.Relation.Render
import Mathlib.Data.List.Induction
import Mathlib.Data.List.Nodup
import Mathlib.Data.List.Perm.Subperm

/-!
# Fresh names

A name that is handed out is its base with the number of its use. A base may end in a number
itself, or be a name that was handed out before, but the last underscore of a name tells where its
base ends. So the names of a whole run are distinct.

A computation draws the names in its value from those it is given and those it hands out if it uses
none of them twice.
-/

namespace PipelineSql

/-! ## Numbered names -/

/-- Only the last underscore counts. -/
lemma append_underscore_inj {a b c d : List Char} (hc : '_' ∉ c) (hd : '_' ∉ d)
    (h : a ++ '_' :: c = b ++ '_' :: d) : a = b ∧ c = d := by
  rcases List.append_eq_append_iff.1 h with ⟨t, rfl, ht⟩ | ⟨t, rfl, ht⟩
  · cases t with
    | nil => simpa using ht
    | cons x t => simp_all
  · cases t with
    | nil => simpa [eq_comm] using ht
    | cons x t => simp_all

lemma underscore_notMem_toDigits (n : Nat) : '_' ∉ Nat.toDigits 10 n := by
  intro h
  have hdigit := Nat.isDigit_of_mem_toDigits (by decide) (by decide) h
  revert hdigit
  decide

lemma toList_numbered (base : String) (n : Nat) :
    s!"{base}_{n}".toList = base.toList ++ '_' :: Nat.toDigits 10 n := by
  simp [toString]

/-- A numbered name tells its base and its number. -/
lemma numbered_inj {a b : String} {m n : Nat} (h : s!"{a}_{m}" = s!"{b}_{n}") : a = b ∧ m = n := by
  have hlist := congrArg String.toList h
  rw [toList_numbered, toList_numbered] at hlist
  obtain ⟨hbase, hdigits⟩ := append_underscore_inj (underscore_notMem_toDigits m)
    (underscore_notMem_toDigits n) hlist
  have hnumber := congrArg (Nat.ofDigitChars 10 · 0) hdigits
  simp only [Nat.ofDigitChars_toDigits (by decide : 1 < 10) (by decide : 10 ≤ 10)] at hnumber
  exact ⟨String.toList_injective hbase, hnumber⟩

/-- The names of bases that are used one after another, some having been used before. -/
def namesFrom (used : List String) : List String → List String
  | [] => []
  | base :: rest => s!"{base}_{used.count base + 1}" :: namesFrom (used ++ [base]) rest

lemma namesFrom_append (used a b : List String) :
    namesFrom used (a ++ b) = namesFrom used a ++ namesFrom (used ++ a) b := by
  induction a generalizing used with
  | nil => simp [namesFrom]
  | cons base a ih => simp [namesFrom, ih]

lemma namesFrom_concat (bases : List String) (last : String) :
    namesFrom [] (bases ++ [last]) = namesFrom [] bases ++ [s!"{last}_{bases.count last + 1}"] :=
  namesFrom_append [] bases [last]

/-- A name has the number of one of the uses of its base. -/
lemma exists_numbered_of_mem {bases : List String} {name : String} (h : name ∈ namesFrom [] bases) :
    ∃ base n, name = s!"{base}_{n}" ∧ n ≤ bases.count base := by
  induction bases using List.reverseRecOn with
  | nil => cases h
  | append_singleton bases last ih =>
    rw [namesFrom_concat, List.mem_append] at h
    rcases h with h | h
    · obtain ⟨base, n, rfl, hn⟩ := ih h
      have hcount : bases.count base ≤ (bases ++ [last]).count base :=
        (List.sublist_append_left bases [last]).count_le base
      exact ⟨base, n, rfl, Nat.le_trans hn hcount⟩
    · obtain rfl : name = _ := List.mem_singleton.1 h
      exact ⟨last, _, rfl, by simp⟩

/-- The number of the next use of a base is that of no use before. -/
lemma nodup_namesFrom (bases : List String) : (namesFrom [] bases).Nodup := by
  induction bases using List.reverseRecOn with
  | nil => exact List.nodup_nil
  | append_singleton bases last ih =>
    rw [namesFrom_concat]
    refine List.Nodup.append ih (List.nodup_singleton _) ?_
    rw [List.disjoint_singleton]
    intro h
    obtain ⟨base, n, he, hn⟩ := exists_numbered_of_mem h
    obtain ⟨rfl, rfl⟩ := numbered_inj he
    exact Nat.not_succ_le_self _ hn

lemma underscore_mem_of_mem {bases : List String} {name : String} (h : name ∈ namesFrom [] bases) :
    '_' ∈ name.toList := by
  obtain ⟨base, n, rfl, -⟩ := exists_numbered_of_mem h
  rw [toList_numbered]
  exact List.mem_append_right _ List.mem_cons_self

namespace Emission

/-- The names that were handed out, in order. -/
def names (e : Emission) : List String :=
  namesFrom [] e.aliases

/-- What is emitted later hands out names after those before. -/
lemma exists_names_eq_append {e e' : Emission} (h : e ≤ e') : ∃ new, e'.names = e.names ++ new := by
  obtain ⟨-, ⟨bases, hbases⟩, -⟩ := h
  rw [names, ← hbases, namesFrom_append]
  exact ⟨_, rfl⟩

end Emission

/-! ## Names in a value -/

namespace Render

variable {α β : Type} {given : List String} {P : α → List String} {Q : β → List String}

/-- The names in the value of a run that ends well are among the given ones and those that the run
hands out, with none of them used twice. -/
def Draws (r : Render α) (given : List String) (P : α → List String) : Prop :=
  ∀ ⦃env e a e'⦄, (r.run env).run e = .ok a e' →
    ∃ new, e'.names = e.names ++ new ∧ (P a).Subperm (given ++ new)

/-- A run that ends well hands out names after those before. -/
lemma exists_names {r : Render α} {env : Env} {e e' : Emission} {a : α}
    (h : (r.run env).run e = .ok a e') : ∃ new, e'.names = e.names ++ new := by
  have hgrows := r.grows env e
  rw [h] at hgrows
  exact Emission.exists_names_eq_append hgrows

lemma newAlias_names (base : String) (env : Env) (e : Emission) :
    ∃ name e', ((newAlias base).run env).run e = .ok name e' ∧ e'.names = e.names ++ [name] :=
  ⟨_, _, rfl, namesFrom_concat e.aliases base⟩

/-- More names than are needed. -/
lemma Draws.weaken {r : Render α} {fewer : List String} (h : r.Draws fewer P)
    (hgiven : fewer.Subperm given) : r.Draws given P := by
  intro env e a e' hr
  obtain ⟨new, hnew, hsub⟩ := h hr
  exact ⟨new, hnew, hsub.trans ((List.subperm_append_right new).2 hgiven)⟩

lemma draws_pure {a : α} (h : (P a).Subperm given) : (pure a : Render α).Draws given P := by
  intro env e a' e' hr
  cases hr
  exact ⟨[], (List.append_nil _).symm, by rwa [List.append_nil]⟩

/-- One computation on some of the names, and another on those in its value and the rest. -/
lemma draws_bind {r : Render α} {k : α → Render β} {part : List String} (rest : List String)
    (hr : r.Draws part P) (hgiven : (part ++ rest).Subperm given)
    (hk : ∀ a, (k a).Draws (P a ++ rest) Q) : (r >>= k).Draws given Q := by
  intro env e b e' h
  have h : ((r.run env) >>= fun a => (k a).run env).run e = .ok b e' := h
  simp only [EStateM.run, bind, EStateM.bind] at h
  split at h
  · next a e₁ ha =>
    obtain ⟨new, hnew, hP⟩ := hr ha
    obtain ⟨new', hnew', hQ⟩ := hk a h
    refine ⟨new ++ new', by rw [hnew', hnew, List.append_assoc], ?_⟩
    rw [List.subperm_iff_count] at *
    intro x
    have hgiven := hgiven x
    have hP := hP x
    have hQ := hQ x
    simp only [List.count_append] at *
    omega
  · cases h

/-- One computation after another, on the names in its value. -/
lemma draws_seq {r : Render α} {k : α → Render β} (hr : r.Draws given P)
    (hk : ∀ a, (k a).Draws (P a) Q) : (r >>= k).Draws given Q :=
  draws_bind [] hr (by rw [List.append_nil]) (by simpa using hk)

/-- A computation in whose value no names count. -/
lemma draws_then {r : Render α} {k : α → Render β} (hk : ∀ a, (k a).Draws given Q) :
    (r >>= k).Draws given Q := by
  have hr : r.Draws [] fun _ => [] := by
    intro env e a e' h
    obtain ⟨new, hnew⟩ := exists_names h
    exact ⟨new, hnew, List.nil_subperm⟩
  exact draws_bind given hr (List.Subperm.refl given) hk

/-- A new name is there to be used. -/
lemma draws_alias {base : String} {k : String → Render β}
    (hk : ∀ label, (k label).Draws (label :: given) Q) : (newAlias base >>= k).Draws given Q := by
  have hr : (newAlias base).Draws [] fun label => [label] := by
    intro env e label e' h
    cases h
    exact ⟨_, namesFrom_concat e.aliases base, List.Subperm.refl _⟩
  exact draws_bind given hr (List.Subperm.refl given) hk

/-- A result that is there. -/
lemma draws_lift {x : Result α} (h : Result.Grants x fun a => (P a).Subperm given) :
    (liftM x : Render α).Draws given P := by
  cases x with
  | ok a => exact draws_pure h
  | error err =>
    intro env e a e' hr
    cases hr

lemma draws_fail (err : Error) : (liftM (.error err : Result α) : Render α).Draws given P :=
  draws_lift (Result.ensures_error trivial)

lemma draws_ite {c : Prop} [Decidable c] {r s : Render α} (h : r.Draws given P)
    (h' : s.Draws given P) : (if c then r else s).Draws given P := by
  split
  · exact h
  · exact h'

/-- A warning under a condition. -/
lemma draws_warn_if {c : Prop} [Decidable c] {d : Deviation} {k : PUnit → Render β}
    (h : (k ⟨⟩).Draws given Q) : (if c then warn d >>= k else k ⟨⟩).Draws given Q :=
  draws_ite (draws_then fun _ => h) h

lemma draws_inStage {stage : Option String} {r : Render α} (h : r.Draws given P) :
    (inStage stage r).Draws given P :=
  fun _ _ _ _ hr => h hr

end Render

end PipelineSql
