import Mathlib.Data.List.Basic
import Mathlib.Tactic.Common

/-!
# Event emitters

An event emitter holds for each event its listeners in the order in which they were added, a
listener as often as it was added. Removing a listener takes out the one of its kind that was added
last. An event calls the listeners it finds one after another, each of them after it has been taken
out if it was added for one event; a listener may take out others of these.

## Main definitions

* `EventEmitter`, `EventEmitter.on`, `EventEmitter.off`: emitters and their operations
* `EventEmitter.onAll`, `EventEmitter.offAll`: the operations for some events and listeners
* `EventEmitter.emit`: an event

## Main results

* `listeners_onAll`, `listeners_offAll`: what adding and removing some listeners does to those of an
  event
* `listeners_emit`: an event leaves the listeners that were not added for one event
-/

namespace EventDriven

variable {N C : Type*}

/-- The listeners of each event, in the order in which they were added. -/
structure EventEmitter (N C : Type*) where
  listeners : N → List C

namespace EventEmitter

/-- The emitter without listeners. -/
def start : EventEmitter N C := ⟨fun _ => []⟩

/-- A list without the last occurrence of an element. -/
def eraseLast [DecidableEq C] (c : C) (l : List C) : List C := (l.reverse.erase c).reverse

variable [DecidableEq N]

def on (E : EventEmitter N C) (name : N) (c : C) : EventEmitter N C :=
  ⟨Function.update E.listeners name (E.listeners name ++ [c])⟩

def onAll (E : EventEmitter N C) (entries : List (N × C)) : EventEmitter N C :=
  entries.foldl (fun E p => E.on p.1 p.2) E

variable [DecidableEq C]

def off (E : EventEmitter N C) (name : N) (c : C) : EventEmitter N C :=
  ⟨Function.update E.listeners name (eraseLast c (E.listeners name))⟩

def offAll (E : EventEmitter N C) (entries : List (N × C)) : EventEmitter N C :=
  entries.foldl (fun E p => E.off p.1 p.2) E

/-- Call a listener, which is taken out before if it was added for one event. -/
def notify {σ : Type*} (once : C → Bool) (call : EventEmitter N C × σ → C → EventEmitter N C × σ)
    (name : N) (p : EventEmitter N C × σ) (c : C) : EventEmitter N C × σ :=
  call (if once c then p.1.off name c else p.1, p.2) c

/-- An event: the listeners that the emitter has are called in order. -/
def emit {σ : Type*} (once : C → Bool) (call : EventEmitter N C × σ → C → EventEmitter N C × σ)
    (E : EventEmitter N C) (name : N) (x : σ) : EventEmitter N C × σ :=
  (E.listeners name).foldl (notify once call name) (E, x)

variable {E : EventEmitter N C} {name name' : N} {c : C} {l : List C} {entries : List (N × C)}
  {P : C → Bool}

/-! ## Lists of listeners -/

omit [DecidableEq N] in
/-- Removing a listener concerns only those of its kind. -/
theorem filter_eraseLast : (eraseLast c l).filter P = eraseLast c (l.filter P) := by
  rw [eraseLast, List.filter_reverse, ← List.erase_filter, List.filter_reverse, eraseLast]

omit [DecidableEq N] in
theorem eraseLast_of_not_mem (h : c ∉ l) : eraseLast c l = l := by
  rw [eraseLast, List.erase_of_not_mem (by simpa using h), List.reverse_reverse]

omit [DecidableEq N] in
/-- A list in which an element occurs at most once has the others without it. -/
theorem erase_eq_filter (h : l.count c ≤ 1) : l.erase c = l.filter (· ≠ c) := by
  induction l with
  | nil => rfl
  | cons d l ih =>
    by_cases hd : d = c
    · subst hd
      have hnot : d ∉ l := by
        rw [List.count_cons_self] at h
        exact List.count_eq_zero.mp (by omega)
      rw [List.erase_cons_head, List.filter_cons_of_neg (by simp), eq_comm, List.filter_eq_self]
      intro a ha
      rw [decide_eq_true_iff]
      rintro rfl
      exact hnot ha
    · rw [List.count_cons_of_ne hd] at h
      rw [List.erase_cons_tail (by simpa using hd), List.filter_cons_of_pos (by simpa using hd),
        ih h]

omit [DecidableEq N] in
/-- Where a listener occurs at most once, removing it leaves the others. -/
theorem eraseLast_eq_filter (h : l.count c ≤ 1) : eraseLast c l = l.filter (· ≠ c) := by
  rw [eraseLast, erase_eq_filter (by rwa [List.count_reverse]), List.filter_reverse,
    List.reverse_reverse]

/-! ## Operations -/

omit [DecidableEq C] in
theorem listeners_on :
    (E.on name c).listeners name' = E.listeners name' ++ if name = name' then [c] else [] := by
  show Function.update E.listeners name _ name' = _
  rw [Function.update_apply]
  split_ifs with h h' h'
  · rw [h]
  · exact absurd h.symm h'
  · exact absurd h'.symm h
  · rw [List.append_nil]

omit [DecidableEq C] in
/-- **Adding some listeners** appends those of an event to its listeners. -/
theorem listeners_onAll : (E.onAll entries).listeners name =
    E.listeners name ++ (entries.filter fun p => p.1 = name).map Prod.snd := by
  -- Induction on the entries.
  induction entries generalizing E with
  | nil => simp [onAll]
  | cons p entries ih =>
    show ((E.on p.1 p.2).onAll entries).listeners name = _
    rw [ih, listeners_on, List.append_assoc, List.filter_cons]
    congr 1
    by_cases hp : p.1 = name <;> simp [hp]

theorem listeners_off : (E.off name c).listeners name' =
    if name' = name then eraseLast c (E.listeners name) else E.listeners name' := by
  show Function.update E.listeners name _ name' = _
  rw [Function.update_apply]

/-- **Removing some listeners** leaves the others of an event, when each of them occurs at most
once. -/
theorem listeners_offAll (h : ∀ p ∈ entries, (E.listeners p.1).count p.2 ≤ 1) :
    (E.offAll entries).listeners name = (E.listeners name).filter fun c => (name, c) ∉ entries := by
  -- Induction on the entries.
  induction entries generalizing E with
  | nil => simp [offAll]
  | cons p entries ih =>
    obtain ⟨first, c⟩ := p
    have hfirst : ∀ name, (E.off first c).listeners name =
        (E.listeners name).filter fun d => (name, d) ≠ (first, c) := by
      intro name
      rw [listeners_off]
      split_ifs with hname
      · rw [hname, eraseLast_eq_filter (h (first, c) (List.mem_cons_self ..))]
        simp
      · simp [hname]
    have hrest : ∀ p ∈ entries, ((E.off first c).listeners p.1).count p.2 ≤ 1 := by
      intro p hp
      rw [hfirst]
      exact Nat.le_trans (List.filter_sublist.count_le p.2) (h p (List.mem_cons_of_mem _ hp))
    show ((E.off first c).offAll entries).listeners name = _
    rw [ih hrest, hfirst, List.filter_filter]
    refine List.filter_congr fun d _ => ?_
    simp [not_or, and_comm]

/-! ## Events -/

section Emit

variable {σ : Type*} {once : C → Bool} {call : EventEmitter N C × σ → C → EventEmitter N C × σ}
  {p : EventEmitter N C × σ} {x : σ}

omit [DecidableEq N] in
theorem count_eraseLast (d : C) :
    (eraseLast d l).count c = l.count c - if d = c then 1 else 0 := by
  rw [eraseLast, List.count_reverse, List.count_erase, List.count_reverse]
  simp only [beq_iff_eq]

theorem count_on (d : C) : ((E.on name c).listeners name').count d =
    (E.listeners name').count d + if name = name' ∧ c = d then 1 else 0 := by
  rw [listeners_on, List.count_append]
  by_cases hname : name = name' <;> by_cases hc : c = d <;> simp [hname, hc]

theorem count_off (d : C) : ((E.off name c).listeners name').count d =
    (E.listeners name').count d - if name = name' ∧ c = d then 1 else 0 := by
  rw [listeners_off]
  by_cases hname : name' = name
  · subst hname
    rw [if_pos rfl, count_eraseLast]
    simp
  · rw [if_neg hname, if_neg fun h => hname h.1.symm, Nat.sub_zero]

/-- What is left of an emitter when some of the listeners of an event were taken out that were added
for one event. -/
structure Trims (once : C → Bool) (name : N) (E F : EventEmitter N C) : Prop where
  others : ∀ name', name' ≠ name → F.listeners name' = E.listeners name'
  lasting : (F.listeners name).filter (fun c => !once c) =
    (E.listeners name).filter (fun c => !once c)
  count : ∀ c, (F.listeners name).count c ≤ (E.listeners name).count c

omit [DecidableEq N] in
theorem Trims.refl (E : EventEmitter N C) : Trims once name E E :=
  ⟨fun _ _ => rfl, rfl, fun _ => Nat.le_refl _⟩

omit [DecidableEq N] in
theorem Trims.trans {F G : EventEmitter N C} (h : Trims once name E F) (h' : Trims once name F G) :
    Trims once name E G :=
  ⟨fun name' hne => (h'.others name' hne).trans (h.others name' hne), h'.lasting.trans h.lasting,
    fun c => Nat.le_trans (h'.count c) (h.count c)⟩

theorem trims_off (hc : once c = true) : Trims once name E (E.off name c) := by
  refine ⟨fun name' hne => by rw [listeners_off, if_neg hne], ?_, fun d => ?_⟩
  · rw [listeners_off, if_pos rfl, filter_eraseLast, eraseLast_of_not_mem (by simp [hc])]
  · rw [listeners_off, if_pos rfl, count_eraseLast]
    exact Nat.sub_le ..

/-- A listener that was added for one event is taken out when it is called. -/
theorem trims_notify (hcall : ∀ p, Trims once name p.1 (call p c).1) :
    Trims once name p.1 (notify once call name p c).1 ∧ (once c = true →
      ((notify once call name p c).1.listeners name).count c ≤
        (p.1.listeners name).count c - 1) := by
  unfold notify
  cases hc : once c with
  | false => exact ⟨hcall _, fun h => by cases h⟩
  | true =>
    refine ⟨(trims_off hc).trans (hcall (p.1.off name c, p.2)), fun _ => ?_⟩
    refine Nat.le_trans ((hcall (p.1.off name c, p.2)).count c) ?_
    refine Nat.le_of_eq (?_ : ((p.1.off name c).listeners name).count c = _)
    rw [listeners_off, if_pos rfl, count_eraseLast, if_pos rfl]

/-- What is left when some listeners were called. -/
theorem trims_foldl (hcall : ∀ c ∈ l, ∀ p, Trims once name p.1 (call p c).1) :
    Trims once name p.1 (l.foldl (notify once call name) p).1 ∧ ∀ d, once d = true →
      ((l.foldl (notify once call name) p).1.listeners name).count d ≤
        (p.1.listeners name).count d - l.count d := by
  -- Induction on the listeners to call.
  induction l generalizing p with
  | nil => exact ⟨.refl _, fun d _ => Nat.le_refl _⟩
  | cons c l ih =>
    obtain ⟨hfirst, hcount⟩ := @trims_notify _ _ _ _ name c σ once call p
      (hcall c (List.mem_cons_self ..))
    obtain ⟨hrest, hrestCount⟩ := @ih (notify once call name p c)
      fun d hd => hcall d (List.mem_cons_of_mem _ hd)
    refine ⟨hfirst.trans hrest, fun d hd => Nat.le_trans (hrestCount d hd) ?_⟩
    by_cases hcd : c = d
    · subst hcd
      have hless := hcount hd
      rw [List.count_cons_self]
      omega
    · have hle := hfirst.count d
      rw [List.count_cons_of_ne hcd]
      omega

/-- **An event leaves the listeners that were not added for one event**, and those of other
events. -/
theorem listeners_emit (hcall : ∀ c ∈ E.listeners name, ∀ p, Trims once name p.1 (call p c).1) :
    (E.emit once call name x).1.listeners name' =
      if name' = name then (E.listeners name).filter (fun c => !once c) else E.listeners name' := by
  obtain ⟨htrims, hcount⟩ := @trims_foldl _ _ _ _ name (E.listeners name) σ once call (E, x) hcall
  split_ifs with hname
  · subst hname
    refine Eq.trans ?_ htrims.lasting
    -- none is left that was added for one event
    refine (List.filter_eq_self.mpr fun c hc => ?_).symm
    cases honce : once c with
    | false => rfl
    | true =>
      have hzero := hcount c honce
      have hpos := List.count_pos_iff.mpr hc
      rw [Nat.sub_self] at hzero
      exact absurd hpos (Nat.not_lt.mpr hzero)
  · exact htrims.others name' hname

/-- What an event does besides: each listener is called once, in order. -/
theorem emit_snd {f : σ → C → σ} (hcall : ∀ p c, (call p c).2 = f p.2 c) :
    (E.emit once call name x).2 = (E.listeners name).foldl f x := by
  have hfold : ∀ (l : List C) p, (l.foldl (notify once call name) p).2 = l.foldl f p.2 := by
    intro l
    induction l with
    | nil => exact fun _ => rfl
    | cons c l ih =>
      intro p
      rw [List.foldl_cons, ih, List.foldl_cons, notify, hcall]
  exact hfold _ _

end Emit

end EventEmitter

end EventDriven
