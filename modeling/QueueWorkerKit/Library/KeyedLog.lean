import Mathlib.Data.List.DropRight
import Mathlib.Data.List.Nodup
import Mathlib.Data.List.Perm.Subperm
import Mathlib.Tactic.Common

/-!
# Keyed logs and retention of the newest entries

A keyed log holds entries in order of arrival, each under a key of its own. Adding under a key
already present changes nothing. A log retains the newest `n` arrivals when it is a part of the
history of arrivals that still contains the last `n` of it; such a log with at most `n` entries
is exactly the last `n` arrivals.

## Main definitions

* `KeyedLog κ α`: entries in order of arrival under distinct keys
* `KeyedLog.add`, `KeyedLog.remove`, `KeyedLog.oldest`: insertion if absent, removal, the oldest
  keys
* `Retains n hist w`: `w` is a part of the history containing its newest `n` arrivals

## Main results

* `Retains.add`, `Retains.remove`: arrivals, and removals of older keys, keep the newest retained
* `Retains.notMem_newest_of_mem_oldest`: keys with `n` later ones in the log are not among the
  newest
* `Retains.eq_newest`: a log of at most `n` entries is exactly the newest `n` arrivals
-/

namespace Retention

variable {κ α : Type*}

/-- Entries in order of arrival, oldest first, under distinct keys. -/
structure KeyedLog (κ α : Type*) where
  entries : List (κ × α)
  nodup : (entries.map Prod.fst).Nodup

namespace KeyedLog

def keys (q : KeyedLog κ α) : List κ := q.entries.map Prod.fst

def empty : KeyedLog κ α := ⟨[], List.nodup_nil⟩

def size (q : KeyedLog κ α) : ℕ := q.entries.length

/-- The keys of the `n` oldest entries. -/
def oldest (q : KeyedLog κ α) (n : ℕ) : List κ := q.keys.take n

variable [DecidableEq κ]

/-- Insertion at the newest end, which changes nothing when the key is present. -/
def add (q : KeyedLog κ α) (k : κ) (a : α) : KeyedLog κ α :=
  if h : k ∈ q.keys then q
  else ⟨q.entries ++ [(k, a)], by
    rw [List.map_append, List.map_singleton]
    exact List.nodup_append.mpr ⟨q.nodup, List.nodup_singleton _, fun x hx y hy => by
      obtain rfl := List.mem_singleton.mp hy
      rintro rfl
      exact h hx⟩⟩

/-- Removal of the entry under a key, if there is one. -/
def remove (q : KeyedLog κ α) (k : κ) : KeyedLog κ α :=
  ⟨q.entries.filter fun e => e.1 ≠ k, (List.filter_sublist.map _).nodup q.nodup⟩

variable {q : KeyedLog κ α} {k : κ} {a : α}

omit [DecidableEq κ] in
theorem keys_nodup (q : KeyedLog κ α) : q.keys.Nodup := q.nodup

omit [DecidableEq κ] in
@[simp] theorem length_keys (q : KeyedLog κ α) : q.keys.length = q.size := by
  simp [keys, size]

theorem keys_add_of_notMem (h : k ∉ q.keys) : (q.add k a).keys = q.keys ++ [k] := by
  simp only [add, dif_neg h]
  simp [keys]

theorem add_of_mem (h : k ∈ q.keys) : q.add k a = q := by
  simp [add, h]

@[simp] theorem mem_keys_add {x : κ} : x ∈ (q.add k a).keys ↔ x = k ∨ x ∈ q.keys := by
  by_cases h : k ∈ q.keys
  · rw [add_of_mem h]
    exact ⟨Or.inr, fun hx => hx.elim (fun hk => hk ▸ h) id⟩
  · rw [keys_add_of_notMem h, List.mem_append, List.mem_singleton, or_comm]

theorem mem_entries_add {e : κ × α} :
    e ∈ (q.add k a).entries ↔ (e = (k, a) ∧ k ∉ q.keys) ∨ e ∈ q.entries := by
  by_cases h : k ∈ q.keys
  · simp [add_of_mem h, h]
  · simp [add, h, or_comm]

@[simp] theorem keys_remove : (q.remove k).keys = q.keys.filter (· ≠ k) := by
  simp only [keys, remove, List.filter_map, Function.comp_def]

omit [DecidableEq κ] in
/-- Two entries under one key are the same entry. -/
theorem eq_of_fst_eq {e f : κ × α} (he : e ∈ q.entries) (hf : f ∈ q.entries) (h : e.1 = f.1) :
    e = f :=
  List.inj_on_of_nodup_map q.nodup he hf h

end KeyedLog

/-- `w` is a part of the history `hist`, of distinct keys, that contains its newest `n`. -/
structure Retains (n : ℕ) (hist w : List κ) : Prop where
  nodup : hist.Nodup
  sublist : w.Sublist hist
  newest : ∀ x ∈ hist.rtake n, x ∈ w

theorem mem_of_mem_rtake {n : ℕ} {l : List κ} {x : κ} (h : x ∈ l.rtake n) : x ∈ l :=
  List.mem_of_mem_drop h

theorem mem_rtake_concat {n : ℕ} {l : List κ} {x k : κ} (h : x ∈ (l ++ [k]).rtake n) :
    x = k ∨ x ∈ l.rtake n := by
  cases n with
  | zero => simp at h
  | succ n =>
    rw [List.rtake_concat_succ, List.mem_append, List.mem_singleton] at h
    -- of the old keys one fewer is among the newest
    apply h.symm.imp_right
    intro hx
    rw [List.rtake] at hx ⊢
    exact (List.drop_sublist_drop_left l (by omega)).subset hx

namespace Retains

variable {n : ℕ} {hist w : List κ}

/-- Every log of distinct keys retains the newest of its own history. -/
theorem refl (h : w.Nodup) : Retains n w w :=
  ⟨h, List.Sublist.refl _, fun _ => mem_of_mem_rtake⟩

/-- A new arrival keeps the newest retained. -/
theorem add (h : Retains n hist w) {k : κ} (hk : k ∉ hist) : Retains n (hist ++ [k]) (w ++ [k]) where
  nodup := List.nodup_append.mpr ⟨h.nodup, List.nodup_singleton _, fun x hx y hy => by
    obtain rfl := List.mem_singleton.mp hy
    rintro rfl
    exact hk hx⟩
  sublist := h.sublist.append (List.Sublist.refl _)
  newest x hx := by
    rcases mem_rtake_concat hx with rfl | hx
    · simp
    · exact List.mem_append_left _ (h.newest x hx)

/-- Removing a key that is not among the newest keeps the newest retained. -/
theorem remove [DecidableEq κ] (h : Retains n hist w) {k : κ} (hk : k ∉ hist.rtake n) :
    Retains n hist (w.filter (· ≠ k)) where
  nodup := h.nodup
  sublist := List.filter_sublist.trans h.sublist
  newest x hx := by
    refine List.mem_filter.mpr ⟨h.newest x hx, ?_⟩
    simp only [ne_eq, decide_not, Bool.not_eq_true', decide_eq_false_iff_not]
    rintro rfl
    exact hk hx

/-- A retaining log is a part of the older history followed by exactly the newest arrivals. -/
theorem exists_eq_append (h : Retains n hist w) :
    ∃ old, old.Sublist (hist.rdrop n) ∧ w = old ++ hist.rtake n := by
  have hsplit : hist.rdrop n ++ hist.rtake n = hist := by
    rw [List.rdrop, List.rtake, List.take_append_drop]
  have hnodup : (hist.rdrop n ++ hist.rtake n).Nodup := by rw [hsplit]; exact h.nodup
  have hsub : w.Sublist (hist.rdrop n ++ hist.rtake n) := by rw [hsplit]; exact h.sublist
  obtain ⟨-, hnew, hdisj⟩ := List.nodup_append.mp hnodup
  obtain ⟨old, new, rfl, hold, hsub⟩ := List.sublist_append_iff.mp hsub
  -- the part after the split has all of the newest, none of which is before it
  have hall : hist.rtake n ⊆ new := fun x hx => by
    rcases List.mem_append.mp (h.newest x hx) with hx' | hx'
    · exact absurd rfl (hdisj x (hold.subset hx') x hx)
    · exact hx'
  have hlen : (hist.rtake n).length ≤ new.length := (List.subperm_of_subset hnew hall).length_le
  exact ⟨old, hold, by rw [hsub.eq_of_length_le hlen]⟩

/-- A key followed by at least `n` others in a retaining log is not among the newest `n`. -/
theorem notMem_newest_of_mem_oldest (h : Retains n hist w) {k : ℕ} (hk : k + n ≤ w.length) {x : κ}
    (hx : x ∈ w.take k) : x ∉ hist.rtake n := by
  obtain ⟨old, -, rfl⟩ := h.exists_eq_append
  have hnew : (hist.rtake n).length ≤ n := by
    rw [List.rtake, List.length_drop]
    omega
  rw [List.length_append] at hk
  rw [List.take_append_of_le_length (by omega)] at hx
  have hdisj := (List.nodup_append.mp (h.sublist.nodup h.nodup)).2.2
  exact fun hx' => hdisj x (List.mem_of_mem_take hx) x hx' rfl

/-- **A retaining log of at most `n` entries is exactly the newest `n` arrivals.** -/
theorem eq_newest (h : Retains n hist w) (hw : w.length ≤ n) : w = hist.rtake n := by
  obtain ⟨old, hold, rfl⟩ := h.exists_eq_append
  have hlen := hold.length_le
  rw [List.rdrop, List.length_take] at hlen
  rw [List.length_append, List.rtake, List.length_drop] at hw
  have hnil : old = [] := List.length_eq_zero_iff.mp (by omega)
  rw [hnil, List.nil_append]

end Retains

/-- Of a list without the first `k` entries of it, at most the rest remains. -/
theorem length_filter_notMem_take_le [BEq κ] [LawfulBEq κ] (l : List κ) (k : ℕ) :
    (l.filter (· ∉ l.take k)).length ≤ l.length - k := by
  have hsplit : l.filter (· ∉ l.take k) = (l.drop k).filter (· ∉ l.take k) := by
    have happ := List.filter_append (p := (· ∉ l.take k)) (l.take k) (l.drop k)
    rw [List.take_append_drop] at happ
    rw [happ, List.filter_eq_nil_iff.mpr (by simp), List.nil_append]
  rw [hsplit, ← List.length_drop]
  exact List.length_filter_le _ _

end Retention
