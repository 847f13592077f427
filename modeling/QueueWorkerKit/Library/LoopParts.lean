import QueueWorkerKit.Library.EventLoop

/-!
# Parts of a loop

The promises and reactions of a loop belong to parts, for example to the calls of one function, and
a reaction subscribes to promises of its own part only. What happens in another part leaves a part
as it is.

## Main definitions

* `Loop.Parted`: reactions are registered at promises of their own part
* `Loop.partQueue`: the microtasks of a part
* `Loop.SamePart`: two loops agree in a part

## Main results

* `samePart_settle`, `samePart_subscribe`, `samePart_pop`: **the frame rule**: a part is as it was
  when something happens in another one
* `partQueue_settle`, `partQueue_subscribe`, `partQueue_pop`: what happens in the part itself
-/

namespace EventDriven

namespace Loop

variable {P K V E ι : Type*}

/-- Reactions are registered at promises of their own part. -/
def Parted (ofPromise : P → ι) (ofReaction : K → ι) (L : Loop P K V E) : Prop :=
  ∀ p, ∀ k ∈ L.reactions p, ofReaction k = ofPromise p

/-- The microtasks of a part, oldest first. -/
def partQueue [DecidableEq ι] (ofReaction : K → ι) (L : Loop P K V E) (i : ι) :
    List (K × Settlement V E) :=
  L.queue.filter fun job => ofReaction job.1 = i

/-- The second loop is in a part as the first one. -/
structure SamePart [DecidableEq ι] (ofPromise : P → ι) (ofReaction : K → ι) (i : ι)
    (L L' : Loop P K V E) : Prop where
  settled : ∀ p, ofPromise p = i → L'.settled p = L.settled p
  reactions : ∀ p, ofPromise p = i → L'.reactions p = L.reactions p
  handled : ∀ p, ofPromise p = i → L'.handled p = L.handled p
  queue : L'.partQueue ofReaction i = L.partQueue ofReaction i

variable [DecidableEq P] [DecidableEq ι] {ofPromise : P → ι} {ofReaction : K → ι} {i : ι}
  {L L' L'' : Loop P K V E} {p : P} {k : K} {r : Settlement V E} {job : K × Settlement V E}

/-! ## What the operations do to reactions -/

/-- Settling a promise that nobody waits for adds no microtask. -/
theorem queue_settle_unwatched (hp : L.reactions p = []) : (L.settle p r).queue = L.queue := by
  cases h : L.settled p with
  | some r' => rw [settle_of_settled (by simp [h])]
  | none =>
    rw [settle_of_pending h, hp, List.map_nil]
    exact List.append_nil _

/-- Settling a promise that nobody waits for leaves the reactions as they are. -/
theorem reactions_settle_unwatched (hp : L.reactions p = []) :
    (L.settle p r).reactions = L.reactions := by
  cases h : L.settled p with
  | some r' => rw [settle_of_settled (by simp [h])]
  | none =>
    rw [settle_of_pending h]
    exact Function.update_eq_self_iff.mpr hp.symm

theorem reactions_settle_self (hp : L.settled p = none) : (L.settle p r).reactions p = [] := by
  rw [settle_of_pending hp]
  exact Function.update_self ..

theorem reactions_subscribe_pending (hp : L.settled p = none) :
    (L.subscribe p k).reactions = Function.update L.reactions p (L.reactions p ++ [k]) := by
  rw [subscribe, hp]

theorem reactions_subscribe_settled (hp : L.settled p = some r) :
    (L.subscribe p k).reactions = L.reactions := by
  rw [subscribe, hp]

/-! ## Registered reactions -/

omit [DecidableEq P] [DecidableEq ι] in
theorem parted_start : (start : Loop P K V E).Parted ofPromise ofReaction :=
  fun _ _ hk => absurd hk List.not_mem_nil

omit [DecidableEq ι] in
theorem Parted.settle (hL : L.Parted ofPromise ofReaction) :
    (L.settle p r).Parted ofPromise ofReaction := by
  cases hp : L.settled p with
  | some r' => rwa [settle_of_settled (by simp [hp])]
  | none =>
    rw [settle_of_pending hp]
    intro q k hk
    by_cases hq : q = p
    · simp [hq] at hk
    · exact hL q k (by simpa [Function.update_of_ne hq] using hk)

omit [DecidableEq ι] in
theorem Parted.subscribe (hL : L.Parted ofPromise ofReaction) (hk : ofReaction k = ofPromise p) :
    (L.subscribe p k).Parted ofPromise ofReaction := by
  unfold Loop.subscribe
  split
  · exact hL
  · intro q k' hk'
    by_cases hq : q = p
    · subst hq
      simp only [Function.update_self] at hk'
      rcases List.mem_append.mp hk' with hk' | hk'
      · exact hL q k' hk'
      · rwa [List.mem_singleton.mp hk']
    · exact hL q k' (by simpa [Function.update_of_ne hq] using hk')

omit [DecidableEq P] [DecidableEq ι] in
theorem Parted.pop (hL : L.Parted ofPromise ofReaction) (h : L.pop = some (job, L')) :
    L'.Parted ofPromise ofReaction := by
  obtain ⟨rest, -, rfl⟩ := pop_eq_some.mp h
  exact hL

/-! ## The microtasks of a part -/

omit [DecidableEq P] in
theorem partQueue_eq_nil (h : L.queue = []) : L.partQueue ofReaction i = [] := by
  rw [partQueue, h, List.filter_nil]

/-- The reactions of a promise are microtasks of its part once it is settled. -/
theorem partQueue_settle (hL : L.Parted ofPromise ofReaction) (hp : L.settled p = none)
    (hi : ofPromise p = i) : (L.settle p r).partQueue ofReaction i =
      L.partQueue ofReaction i ++ (L.reactions p).map fun k => (k, r) := by
  rw [settle_of_pending hp, partQueue, partQueue, List.filter_append]
  congr 1
  refine List.filter_eq_self.mpr fun job hjob => ?_
  obtain ⟨k, hk, rfl⟩ := List.mem_map.mp hjob
  exact decide_eq_true ((hL p k hk).trans hi)

theorem partQueue_subscribe_pending (hp : L.settled p = none) :
    (L.subscribe p k).partQueue ofReaction i = L.partQueue ofReaction i := by
  rw [subscribe, hp]
  rfl

/-- A reaction to a settled promise is a microtask at once. -/
theorem partQueue_subscribe_settled (hp : L.settled p = some r) (hk : ofReaction k = i) :
    (L.subscribe p k).partQueue ofReaction i = L.partQueue ofReaction i ++ [(k, r)] := by
  rw [subscribe, hp]
  simp [partQueue, List.filter_append, hk]

omit [DecidableEq P] in
/-- A microtask of a part is the oldest one of it. -/
theorem partQueue_pop (h : L.pop = some (job, L')) (hi : ofReaction job.1 = i) :
    L.partQueue ofReaction i = job :: L'.partQueue ofReaction i := by
  obtain ⟨rest, hq, rfl⟩ := pop_eq_some.mp h
  rw [partQueue, hq, List.filter_cons_of_pos (by simpa using hi), partQueue]

/-! ## The frame rule -/

omit [DecidableEq P] in
theorem SamePart.refl : SamePart ofPromise ofReaction i L L :=
  ⟨fun _ _ => rfl, fun _ _ => rfl, fun _ _ => rfl, rfl⟩

omit [DecidableEq P] in
theorem SamePart.trans (h : SamePart ofPromise ofReaction i L L')
    (h' : SamePart ofPromise ofReaction i L' L'') : SamePart ofPromise ofReaction i L L'' where
  settled p hp := (h'.settled p hp).trans (h.settled p hp)
  reactions p hp := (h'.reactions p hp).trans (h.reactions p hp)
  handled p hp := (h'.handled p hp).trans (h.handled p hp)
  queue := h'.queue.trans h.queue

/-- A promise of another part settles. -/
theorem samePart_settle (hL : L.Parted ofPromise ofReaction) (hi : ofPromise p ≠ i) :
    SamePart ofPromise ofReaction i L (L.settle p r) := by
  cases hp : L.settled p with
  | some r' =>
    rw [settle_of_settled (by simp [hp])]
    exact .refl
  | none =>
    have hne : ∀ q, ofPromise q = i → q ≠ p := by
      rintro q hq rfl
      exact hi hq
    refine ⟨fun q hq => settled_settle_of_ne (hne q hq), fun q hq => ?_, fun q _ => ?_, ?_⟩
    · exact reactions_settle_of_ne (hne q hq)
    · rw [handled_settle]
    · have hnone : ((L.reactions p).map fun k => (k, r)).filter
          (fun job => ofReaction job.1 = i) = [] := by
        refine List.filter_eq_nil_iff.mpr fun job hjob => ?_
        obtain ⟨k, hk, rfl⟩ := List.mem_map.mp hjob
        simpa [hL p k hk] using hi
      rw [settle_of_pending hp, partQueue, partQueue, List.filter_append, hnone, List.append_nil]

/-- A reaction of another part subscribes. -/
theorem samePart_subscribe (hk : ofReaction k = ofPromise p) (hi : ofPromise p ≠ i) :
    SamePart ofPromise ofReaction i L (L.subscribe p k) := by
  have hne : ∀ q, ofPromise q = i → q ≠ p := by
    rintro q hq rfl
    exact hi hq
  refine ⟨fun q _ => by rw [settled_subscribe], fun q hq => ?_, fun q hq => ?_, ?_⟩
  · unfold Loop.subscribe
    split
    · rfl
    · exact Function.update_of_ne (hne q hq) _ _
  · rw [handled_subscribe, Function.update_of_ne (hne q hq)]
  · cases hp : L.settled p with
    | none => exact partQueue_subscribe_pending hp
    | some r =>
      rw [subscribe, hp]
      simp [partQueue, List.filter_append, hk, hi]

omit [DecidableEq P] in
/-- A microtask of another part is taken. -/
theorem samePart_pop (h : L.pop = some (job, L')) (hi : ofReaction job.1 ≠ i) :
    SamePart ofPromise ofReaction i L L' := by
  obtain ⟨rest, hq, rfl⟩ := pop_eq_some.mp h
  refine ⟨fun _ _ => rfl, fun _ _ => rfl, fun _ _ => rfl, ?_⟩
  rw [partQueue, partQueue, hq, List.filter_cons_of_neg (by simpa using hi)]

end Loop

end EventDriven
