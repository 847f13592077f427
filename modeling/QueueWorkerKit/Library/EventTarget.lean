import Mathlib.Data.List.Nodup
import Mathlib.Tactic.Common

/-!
# Event targets

An event target holds its listeners in the order in which they were added, at most one for each
callback. An event calls the listeners it finds one after another, each of them after it has been
taken out if it was added for one event. The callbacks change a state of their own and leave the
target alone.

## Main definitions

* `Listener`, `EventTarget`: a callback with its option, and the listeners of a target
* `EventTarget.addEventListener`, `removeEventListener`, `dispatch`: the operations of a target
* `EventTarget.lasting`, `EventTarget.only`: the listeners that an event leaves, and those of some
  callbacks

## Main results

* `dispatch_eq`: an event calls each callback once, in order, and keeps the listeners that last
* `only_addEventListener_of_true`, `only_addEventListener_of_false`, `only_removeEventListener`,
  `only_lasting`: of the operations, some callbacks see those on their own listeners
-/

namespace EventDriven

variable {C σ : Type*}

/-- A callback, and whether it was added for one event. -/
structure Listener (C : Type*) where
  callback : C
  once : Bool

/-- Listeners in the order in which they were added, at most one for each callback. -/
@[ext] structure EventTarget (C : Type*) where
  listeners : List (Listener C)
  nodup : (listeners.map Listener.callback).Nodup

namespace EventTarget

/-- The target without listeners. -/
def start : EventTarget C := ⟨[], List.nodup_nil⟩

def callbacks (T : EventTarget C) : List C := T.listeners.map Listener.callback

theorem nodup_callbacks (T : EventTarget C) : T.callbacks.Nodup := T.nodup

theorem mem_callbacks {T : EventTarget C} {c : C} :
    c ∈ T.callbacks ↔ ∃ once, ⟨c, once⟩ ∈ T.listeners := by
  simp only [callbacks, List.mem_map]
  constructor
  · rintro ⟨l, hl, rfl⟩
    exact ⟨l.once, hl⟩
  · rintro ⟨once, hl⟩
    exact ⟨⟨c, once⟩, hl, rfl⟩

theorem nodup_filter (T : EventTarget C) (p : Listener C → Bool) :
    ((T.listeners.filter p).map Listener.callback).Nodup :=
  T.nodup.sublist (List.filter_sublist.map _)

theorem nodup_concat {T : EventTarget C} {c : C} (once : Bool) (h : c ∉ T.callbacks) :
    ((T.listeners ++ [Listener.mk c once]).map Listener.callback).Nodup := by
  rw [List.map_append]
  refine List.nodup_append.mpr ⟨T.nodup, List.nodup_singleton c, ?_⟩
  rintro a ha b hb rfl
  rw [List.mem_singleton.mp hb] at ha
  exact h ha

/-- The target with the listeners that satisfy a predicate. -/
def keep (p : Listener C → Bool) (T : EventTarget C) : EventTarget C :=
  ⟨T.listeners.filter p, T.nodup_filter p⟩

/-- The listeners that were not added for one event. -/
def lasting (T : EventTarget C) : EventTarget C := T.keep fun l => !l.once

variable [DecidableEq C]

/-- Add a listener, which has no effect when its callback has one. -/
def addEventListener (T : EventTarget C) (c : C) (once : Bool) : EventTarget C :=
  if h : c ∈ T.callbacks then T else ⟨T.listeners ++ [⟨c, once⟩], nodup_concat once h⟩

/-- Remove the listener of a callback, if there is one. -/
def removeEventListener (T : EventTarget C) (c : C) : EventTarget C :=
  T.keep fun l => l.callback != c

/-- Call a listener, which is taken out before if it was added for one event. -/
def notify (call : σ → C → σ) (p : EventTarget C × σ) (l : Listener C) : EventTarget C × σ :=
  (if l.once then p.1.removeEventListener l.callback else p.1, call p.2 l.callback)

/-- An event: the listeners that the target has are called in order. -/
def dispatch (call : σ → C → σ) (T : EventTarget C) (x : σ) : EventTarget C × σ :=
  T.listeners.foldl (notify call) (T, x)

variable {T : EventTarget C} {c d : C} {once : Bool} {p q : Listener C → Bool} {x : σ}
  {call : σ → C → σ}

/-! ## Which callbacks have listeners -/

omit [DecidableEq C] in
theorem mem_callbacks_keep : c ∈ (T.keep p).callbacks ↔
    ∃ once, ⟨c, once⟩ ∈ T.listeners ∧ p ⟨c, once⟩ = true := by
  simp only [mem_callbacks, keep, List.mem_filter]

theorem mem_addEventListener :
    d ∈ (T.addEventListener c once).callbacks ↔ d = c ∨ d ∈ T.callbacks := by
  unfold addEventListener
  split_ifs with hc
  · constructor
    · exact Or.inr
    · rintro (rfl | hd)
      · exact hc
      · exact hd
  · simp only [callbacks, List.map_append, List.map_singleton, List.mem_append,
      List.mem_singleton]
    exact or_comm

theorem mem_removeEventListener :
    d ∈ (T.removeEventListener c).callbacks ↔ d ≠ c ∧ d ∈ T.callbacks := by
  rw [removeEventListener, mem_callbacks_keep, mem_callbacks]
  simp only [bne_iff_ne]
  constructor
  · rintro ⟨once, hmem, hne⟩
    exact ⟨hne, once, hmem⟩
  · rintro ⟨hne, once, hmem⟩
    exact ⟨once, hmem, hne⟩

omit [DecidableEq C] in
/-- A callback whose listener is for one event has none that lasts. -/
theorem notMem_lasting (h : ∀ l ∈ T.listeners, l.callback = c → l.once = true) :
    c ∉ T.lasting.callbacks := by
  intro hmem
  obtain ⟨once, hl, hlasting⟩ := mem_callbacks_keep.mp hmem
  rw [h _ hl rfl] at hlasting
  cases hlasting

theorem listeners_addEventListener_subset {l : Listener C}
    (h : l ∈ (T.addEventListener c once).listeners) : l ∈ T.listeners ∨ l = ⟨c, once⟩ := by
  unfold addEventListener at h
  split_ifs at h with hc
  · exact Or.inl h
  · rcases List.mem_append.mp h with h | h
    · exact Or.inl h
    · exact Or.inr (List.mem_singleton.mp h)

omit [DecidableEq C] in
theorem listeners_keep_subset {l : Listener C} (h : l ∈ (T.keep p).listeners) :
    l ∈ T.listeners := (List.mem_filter.mp h).1

/-! ## Some of the listeners -/

omit [DecidableEq C] in
theorem keep_comm : (T.keep p).keep q = (T.keep q).keep p := by
  ext1
  show (T.listeners.filter p).filter q = (T.listeners.filter q).filter p
  rw [List.filter_comm]

omit [DecidableEq C] in
theorem keep_eq_self (h : ∀ l ∈ T.listeners, p l = true) : T.keep p = T := by
  ext1
  exact List.filter_eq_self.mpr h

omit [DecidableEq C] in
theorem keep_congr (h : ∀ l ∈ T.listeners, p l = q l) : T.keep p = T.keep q := by
  ext1
  exact List.filter_congr h

omit [DecidableEq C] in
theorem keep_keep : (T.keep p).keep q = T.keep fun l => p l && q l := by
  ext1
  show (T.listeners.filter p).filter q = T.listeners.filter fun l => p l && q l
  rw [List.filter_filter]
  exact List.filter_congr fun l _ => Bool.and_comm ..

/-- Those whose callbacks satisfy a predicate. -/
def only (P : C → Bool) (T : EventTarget C) : EventTarget C := T.keep fun l => P l.callback

variable {P : C → Bool}

omit [DecidableEq C] in
theorem only_lasting : T.lasting.only P = (T.only P).lasting := keep_comm

omit [DecidableEq C] in
theorem only_eq_self (h : ∀ d ∈ T.callbacks, P d = true) : T.only P = T :=
  keep_eq_self fun l hl => h l.callback (List.mem_map_of_mem hl)

/-- Adding a listener concerns only those that its callback belongs to. -/
theorem only_addEventListener_of_false (h : P c = false) :
    (T.addEventListener c once).only P = T.only P := by
  unfold addEventListener
  split_ifs with hc
  · rfl
  · ext1
    show (T.listeners ++ [Listener.mk c once]).filter _ = T.listeners.filter _
    rw [List.filter_append, List.filter_singleton, h, cond_false, List.append_nil]

theorem only_addEventListener_of_true (h : P c = true) :
    (T.addEventListener c once).only P = (T.only P).addEventListener c once := by
  have hiff : c ∈ (T.only P).callbacks ↔ c ∈ T.callbacks := by
    rw [only, mem_callbacks_keep, mem_callbacks]
    simp only [h, and_true]
  unfold addEventListener
  by_cases hc : c ∈ T.callbacks
  · rw [dif_pos hc, dif_pos (hiff.mpr hc)]
  · rw [dif_neg hc, dif_neg (mt hiff.mp hc)]
    ext1
    show (T.listeners ++ [Listener.mk c once]).filter _ = T.listeners.filter _ ++ [_]
    rw [List.filter_append, List.filter_singleton, h, cond_true]

theorem only_removeEventListener :
    (T.removeEventListener c).only P = (T.only P).removeEventListener c := keep_comm

theorem removeEventListener_eq_self (h : c ∉ T.callbacks) : T.removeEventListener c = T := by
  refine keep_eq_self fun l hl => ?_
  rw [bne_iff_ne]
  rintro rfl
  exact h (List.mem_map_of_mem hl)

/-- Removing a listener concerns only those that its callback belongs to. -/
theorem only_removeEventListener_of_false (h : P c = false) :
    (T.removeEventListener c).only P = T.only P := by
  rw [only_removeEventListener]
  apply removeEventListener_eq_self
  rw [only, mem_callbacks_keep]
  rintro ⟨once, -, hP⟩
  exact Bool.false_ne_true (h.symm.trans hP)

/-! ## Events -/

/-- Calling some listeners takes out those that were added for one event. -/
theorem foldl_notify (ls : List (Listener C)) : ls.foldl (notify call) (T, x) =
    (T.keep fun l => !ls.any fun l' => l'.once && l'.callback == l.callback,
      (ls.map Listener.callback).foldl call x) := by
  -- Induction on the listeners to be called, for every target and every state of the callbacks.
  induction ls generalizing T x with
  | nil => exact Prod.ext (keep_eq_self fun _ _ => rfl).symm rfl
  | cons l ls ih =>
    rw [List.foldl_cons, notify, ih]
    refine Prod.ext ?_ rfl
    cases honce : l.once with
    | false =>
      refine keep_congr fun l' _ => ?_
      rw [List.any_cons, honce, Bool.false_and, Bool.false_or]
    | true =>
      rw [if_pos rfl, removeEventListener, keep_keep]
      refine keep_congr fun l' _ => ?_
      rw [List.any_cons, honce, Bool.true_and, Bool.not_or, bne, Bool.beq_comm]

/-- **An event** calls each callback once, in order, and keeps the listeners that last. -/
theorem dispatch_eq : T.dispatch call x = (T.lasting, T.callbacks.foldl call x) := by
  rw [dispatch, foldl_notify]
  refine Prod.ext (keep_congr fun l hl => congrArg _ ?_) rfl
  rw [Bool.eq_iff_iff, List.any_eq_true]
  constructor
  · rintro ⟨l', hl', hmatch⟩
    obtain ⟨honce, hcallback⟩ := Bool.and_eq_true_iff.mp hmatch
    -- the callback has no other listener
    rwa [← List.inj_on_of_nodup_map T.nodup hl' hl (eq_of_beq hcallback)]
  · intro honce
    exact ⟨l, hl, by rw [honce, Bool.true_and, beq_self_eq_true]⟩

end EventTarget

end EventDriven
