import Mathlib.Data.Finset.Card
import Mathlib.Data.List.Nodup
import Mathlib.Logic.Function.Basic
import Mathlib.Tactic.Common

/-!
# Promises and the microtask queue

A loop holds named promises and a first-in first-out queue of microtasks. Settling a pending
promise moves its reactions to the queue; subscribing to a settled promise enqueues the reaction
at once. Settling twice changes nothing. A promise is handled once something subscribed to it,
and a promise that is rejected while unhandled is what a host reports.

Every reaction `k` subscribes to one promise `src k`, and at most once at a time. A reaction is
live from its subscription until its microtask is taken from the queue.

## Main definitions

* `Settlement`, `Loop`: settled values, and promises with their queue
* `Loop.settle`, `Loop.subscribe`, `Loop.pop`: the operations of a loop
* `Loop.WellFormed src`: each reaction is registered at most once, at its own promise
* `Loop.Live src k`: the reaction `k` is registered or queued
* `Loop.Precedes p a b`: of the reactions of one promise, `a` stands before `b`

## Main results

* `WellFormed.settle`, `WellFormed.subscribe`, `WellFormed.pop`: the operations keep a loop
  well formed
* `live_settle`, `live_subscribe`, `live_pop`: settling keeps the live reactions, subscribing adds
  one and taking a microtask removes one
* `liveCount_pop_lt`, `liveCount_subscribe_le`: how the number of live reactions changes
* `Precedes.not_live_of_pop`: a reaction has run before one that it precedes
* `WellFormed.pending_of_live`: once the queue is empty, live reactions wait for pending promises
-/

namespace EventDriven

variable {P K V E : Type*}

/-- How a promise is settled. -/
inductive Settlement (V E : Type*)
  | fulfilled (value : V)
  | rejected (reason : E)
  deriving DecidableEq

/-- Promises by name, their registered reactions, and the microtask queue, oldest first. -/
structure Loop (P K V E : Type*) where
  settled : P → Option (Settlement V E)
  reactions : P → List K
  handled : P → Bool
  queue : List (K × Settlement V E)

namespace Loop

/-- The loop in which every promise is pending and unobserved. -/
def start : Loop P K V E := ⟨fun _ => none, fun _ => [], fun _ => false, []⟩

/-- The oldest microtask, and the loop without it. -/
def pop (L : Loop P K V E) : Option ((K × Settlement V E) × Loop P K V E) :=
  match L.queue with
  | [] => none
  | job :: rest => some (job, { L with queue := rest })

/-- The promise is rejected. -/
def Rejected (L : Loop P K V E) (p : P) : Prop := ∃ e, L.settled p = some (.rejected e)

/-- The promise is rejected and nothing subscribed to it. -/
def Unhandled (L : Loop P K V E) (p : P) : Prop := L.Rejected p ∧ L.handled p = false

variable [DecidableEq P]

/-- Settle a promise, which has no effect when it is settled already. -/
def settle (L : Loop P K V E) (p : P) (r : Settlement V E) : Loop P K V E :=
  match L.settled p with
  | some _ => L
  | none =>
    { L with
      settled := Function.update L.settled p (some r)
      reactions := Function.update L.reactions p []
      queue := L.queue ++ (L.reactions p).map fun k => (k, r) }

/-- Register a reaction: enqueued at once when the promise is settled. -/
def subscribe (L : Loop P K V E) (p : P) (k : K) : Loop P K V E :=
  match L.settled p with
  | some r =>
    { L with
      handled := Function.update L.handled p true
      queue := L.queue ++ [(k, r)] }
  | none =>
    { L with
      handled := Function.update L.handled p true
      reactions := Function.update L.reactions p (L.reactions p ++ [k]) }

variable {L L' : Loop P K V E} {p q : P} {k k' a b : K} {r : Settlement V E}

/-! ## What the operations change -/

omit [DecidableEq P] in
@[simp] theorem settled_start : (start : Loop P K V E).settled p = none := rfl

omit [DecidableEq P] in
@[simp] theorem handled_start : (start : Loop P K V E).handled p = false := rfl

theorem settle_of_settled (h : L.settled p ≠ none) : L.settle p r = L := by
  obtain ⟨r', hr⟩ := Option.ne_none_iff_exists'.mp h
  simp [settle, hr]

theorem settle_of_pending (h : L.settled p = none) : L.settle p r =
    { L with
      settled := Function.update L.settled p (some r)
      reactions := Function.update L.reactions p []
      queue := L.queue ++ (L.reactions p).map fun k => (k, r) } := by
  simp [settle, h]

@[simp] theorem settled_settle_self : (L.settle p r).settled p = some ((L.settled p).getD r) := by
  cases h : L.settled p with
  | some r' => rw [settle_of_settled (by simp [h]), h, Option.getD_some]
  | none => simp [settle_of_pending h]

@[simp] theorem settled_settle_of_ne (h : q ≠ p) : (L.settle p r).settled q = L.settled q := by
  cases hp : L.settled p with
  | some r' => rw [settle_of_settled (by simp [hp])]
  | none => simp [settle_of_pending hp, h]

theorem settled_settle : (L.settle p r).settled q =
    if q = p then some ((L.settled p).getD r) else L.settled q := by
  split_ifs with h
  · rw [h, settled_settle_self]
  · exact settled_settle_of_ne h

/-- What is settled stays settled as it is. -/
theorem settled_settle_of_settled {r' : Settlement V E} (h : L.settled q = some r') :
    (L.settle p r).settled q = some r' := by
  rw [settled_settle]
  split_ifs with hq
  · rw [← hq, h, Option.getD_some]
  · exact h

theorem settled_settle_ne_none (h : L.settled q ≠ none) : (L.settle p r).settled q ≠ none := by
  obtain ⟨r', hr⟩ := Option.ne_none_iff_exists'.mp h
  rw [settled_settle_of_settled hr]
  exact Option.some_ne_none r'

/-- A promise that is settled afterwards was so before, or is the one that settles. -/
theorem settled_of_settled_settle {r' : Settlement V E} (h : (L.settle p r).settled q = some r') :
    L.settled q = some r' ∨ q = p ∧ r = r' := by
  rw [settled_settle] at h
  split_ifs at h with hq
  · subst hq
    cases hset : L.settled q with
    | none =>
      rw [hset, Option.getD_none] at h
      exact Or.inr ⟨rfl, Option.some.inj h⟩
    | some earlier =>
      rw [hset, Option.getD_some] at h
      exact Or.inl h
  · exact Or.inl h

theorem reactions_settle_of_ne (h : q ≠ p) : (L.settle p r).reactions q = L.reactions q := by
  cases hp : L.settled p with
  | some r' => rw [settle_of_settled (by simp [hp])]
  | none => simp [settle_of_pending hp, h]

@[simp] theorem handled_settle : (L.settle p r).handled = L.handled := by
  cases h : L.settled p with
  | some r' => rw [settle_of_settled (by simp [h])]
  | none => rw [settle_of_pending h]

@[simp] theorem settled_subscribe : (L.subscribe p k).settled = L.settled := by
  unfold subscribe
  split <;> rfl

@[simp] theorem handled_subscribe :
    (L.subscribe p k).handled = Function.update L.handled p true := by
  unfold subscribe
  split <;> rfl

omit [DecidableEq P] in
theorem pop_eq_some {job : K × Settlement V E} :
    L.pop = some (job, L') ↔ ∃ rest, L.queue = job :: rest ∧ L' = { L with queue := rest } := by
  unfold pop
  split
  · next h => simp [h]
  · next j rest h =>
    rw [h]
    constructor
    · rintro ⟨⟩
      exact ⟨rest, rfl, rfl⟩
    · rintro ⟨_, ⟨⟩, rfl⟩
      rfl

omit [DecidableEq P] in
theorem pop_eq_none : L.pop = none ↔ L.queue = [] := by
  unfold pop
  split <;> simp_all

omit [DecidableEq P] in
theorem settled_pop {job : K × Settlement V E} (h : L.pop = some (job, L')) :
    L'.settled = L.settled := by
  obtain ⟨rest, -, rfl⟩ := pop_eq_some.mp h
  rfl

omit [DecidableEq P] in
theorem handled_pop {job : K × Settlement V E} (h : L.pop = some (job, L')) :
    L'.handled = L.handled := by
  obtain ⟨rest, -, rfl⟩ := pop_eq_some.mp h
  rfl

/-- Settling only appends to the queue. -/
theorem exists_queue_settle : ∃ jobs, (L.settle p r).queue = L.queue ++ jobs := by
  cases h : L.settled p with
  | some r' => exact ⟨[], by rw [settle_of_settled (by simp [h]), List.append_nil]⟩
  | none => exact ⟨_, by rw [settle_of_pending h]⟩

/-- Subscribing only appends to the queue. -/
theorem exists_queue_subscribe : ∃ jobs, (L.subscribe p k).queue = L.queue ++ jobs := by
  unfold subscribe
  split
  · exact ⟨_, rfl⟩
  · exact ⟨[], by simp⟩

/-! ## Live reactions -/

/-- A reaction that is registered at its promise or queued. -/
def Live (src : K → P) (L : Loop P K V E) (k : K) : Prop :=
  k ∈ L.reactions (src k) ∨ k ∈ L.queue.map Prod.fst

/-- Each reaction is registered at most once, at its own promise while that is pending, and is
queued with the settlement of that promise. -/
structure WellFormed (src : K → P) (L : Loop P K V E) : Prop where
  registered : ∀ p k, k ∈ L.reactions p → src k = p
  nodup_reactions : ∀ p, (L.reactions p).Nodup
  drained : ∀ p, L.settled p ≠ none → L.reactions p = []
  queued : ∀ k r, (k, r) ∈ L.queue → L.settled (src k) = some r
  nodup_queue : (L.queue.map Prod.fst).Nodup

variable {src : K → P}

omit [DecidableEq P] in
theorem wellFormed_start : (start : Loop P K V E).WellFormed src where
  registered _ _ h := absurd h List.not_mem_nil
  nodup_reactions _ := List.nodup_nil
  drained _ _ := rfl
  queued _ _ h := absurd h List.not_mem_nil
  nodup_queue := List.nodup_nil

omit [DecidableEq P] in
@[simp] theorem not_live_start : ¬ (start : Loop P K V E).Live src k := by
  simp [Live, start]

omit [DecidableEq P] in
theorem WellFormed.notMem_queue_of_mem_reactions (hL : L.WellFormed src)
    (hk : k ∈ L.reactions p) : k ∉ L.queue.map Prod.fst := by
  intro hq
  obtain ⟨⟨k, r⟩, hmem, rfl⟩ := List.mem_map.mp hq
  have hp : src k = p := hL.registered p k hk
  rw [hL.drained p (by simp [← hp, hL.queued k r hmem])] at hk
  exact absurd hk List.not_mem_nil

theorem live_settle (hL : L.WellFormed src) : (L.settle p r).Live src k ↔ L.Live src k := by
  cases h : L.settled p with
  | some r' => rw [settle_of_settled (by simp [h])]
  | none =>
    rw [settle_of_pending h]
    simp only [Live, List.map_append, List.map_map, Function.comp_def, List.map_id',
      List.mem_append]
    -- its own reactions go from registered to queued, which is live either way
    by_cases hp : src k = p
    · subst hp
      simp [or_comm]
    · rw [Function.update_of_ne hp]
      have hk : k ∉ L.reactions p := fun hk => hp (hL.registered p k hk)
      simp [hk]

theorem live_subscribe (hk : src k = p) :
    (L.subscribe p k).Live src k' ↔ k' = k ∨ L.Live src k' := by
  subst hk
  unfold subscribe
  split
  · simp only [Live, List.map_append, List.map_singleton, List.mem_append, List.mem_singleton]
    tauto
  · simp only [Live]
    by_cases hp : src k' = src k
    · rw [hp, Function.update_self, List.mem_append, List.mem_singleton]
      tauto
    · rw [Function.update_of_ne hp]
      have hne : k' ≠ k := fun h => hp (by rw [h])
      tauto

/-- A live reaction stays live when a promise settles. -/
theorem Live.settle (h : L.Live src k) : (L.settle p r).Live src k := by
  cases hp : L.settled p with
  | some r' => rwa [settle_of_settled (by simp [hp])]
  | none =>
    rw [settle_of_pending hp]
    simp only [Live, List.map_append, List.map_map, Function.comp_def, List.map_id',
      List.mem_append]
    rcases h with hk | hk
    · by_cases hsrc : src k = p
      · exact Or.inr (Or.inr (hsrc ▸ hk))
      · rw [Function.update_of_ne hsrc]
        exact Or.inl hk
    · exact Or.inr (Or.inl hk)

/-- A live reaction stays live when another one subscribes. -/
theorem Live.subscribe (h : L.Live src k') : (L.subscribe p k).Live src k' := by
  unfold Loop.subscribe
  split
  · rcases h with hk | hk
    · exact Or.inl hk
    · refine Or.inr ?_
      rw [List.map_append]
      exact List.mem_append_left _ hk
  · rcases h with hk | hk
    · refine Or.inl ?_
      show k' ∈ Function.update L.reactions p (L.reactions p ++ [k]) (src k')
      by_cases hsrc : src k' = p
      · rw [hsrc] at hk ⊢
        rw [Function.update_self]
        exact List.mem_append_left _ hk
      · rwa [Function.update_of_ne hsrc]
    · exact Or.inr hk

/-- A reaction is live once it has subscribed. -/
theorem live_subscribe_self (hk : src k = p) : (L.subscribe p k).Live src k :=
  (live_subscribe hk).mpr (Or.inl rfl)

omit [DecidableEq P] in
/-- A microtask carries the settlement of the promise its reaction subscribed to. -/
theorem WellFormed.settled_of_pop (hL : L.WellFormed src) (h : L.pop = some ((k, r), L')) :
    L.settled (src k) = some r := by
  obtain ⟨rest, hq, -⟩ := pop_eq_some.mp h
  exact hL.queued k r (by simp [hq])

omit [DecidableEq P] in
theorem live_of_pop (h : L.pop = some ((k, r), L')) : L.Live src k := by
  obtain ⟨rest, hq, -⟩ := pop_eq_some.mp h
  exact Or.inr (by simp [hq])

omit [DecidableEq P] in
theorem live_pop (hL : L.WellFormed src) (h : L.pop = some ((k, r), L')) :
    L'.Live src k' ↔ k' ≠ k ∧ L.Live src k' := by
  have hset := hL.settled_of_pop h
  obtain ⟨rest, hq, rfl⟩ := pop_eq_some.mp h
  have hnodup := hL.nodup_queue
  rw [hq, List.map_cons, List.nodup_cons] at hnodup
  simp only [Live, hq, List.map_cons, List.mem_cons]
  by_cases hk : k' = k
  · subst hk
    have hreact : L.reactions (src k') = [] := hL.drained _ (by simp [hset])
    simp [hreact, hnodup.1]
  · simp [hk]

omit [DecidableEq P] in
/-- Once the queue is empty, a live reaction waits for a pending promise. -/
theorem WellFormed.pending_of_live (hL : L.WellFormed src) (hq : L.queue = [])
    (hk : L.Live src k) : L.settled (src k) = none := by
  rcases hk with hk | hk
  · by_contra hne
    rw [hL.drained _ hne] at hk
    exact absurd hk List.not_mem_nil
  · simp [hq] at hk

/-! ## The operations keep a loop well formed -/

theorem WellFormed.settle (hL : L.WellFormed src) : (L.settle p r).WellFormed src := by
  cases h : L.settled p with
  | some r' => rwa [settle_of_settled (by simp [h])]
  | none =>
    rw [settle_of_pending h]
    -- the reactions of the promise move to the queue, those of the others stay
    refine ⟨fun q k hk => ?_, fun q => ?_, fun q hq => ?_, fun k r' hk => ?_, ?_⟩
    · by_cases hqp : q = p
      · simp [hqp] at hk
      · exact hL.registered q k (by simpa [hqp] using hk)
    · by_cases hqp : q = p
      · simp [hqp]
      · simpa [hqp] using hL.nodup_reactions q
    · by_cases hqp : q = p
      · simp [hqp]
      · simpa [hqp] using hL.drained q (by simpa [hqp] using hq)
    · rcases List.mem_append.mp hk with hk | hk
      · have hs := hL.queued k r' hk
        have hne : src k ≠ p := fun hp => by simp [hp, h] at hs
        simpa [hne] using hs
      · obtain ⟨k, hreact, ⟨⟩⟩ := List.mem_map.mp hk
        simp [hL.registered p k hreact]
    · rw [List.map_append, List.map_map]
      refine List.nodup_append.mpr ⟨hL.nodup_queue, ?_, ?_⟩
      · simpa [Function.comp_def] using hL.nodup_reactions p
      · rintro k hk _ hk' rfl
        apply hL.notMem_queue_of_mem_reactions (p := p) (k := k) _ hk
        simpa [Function.comp_def] using hk'

theorem WellFormed.subscribe (hL : L.WellFormed src) (hk : src k = p) (hlive : ¬ L.Live src k) :
    (L.subscribe p k).WellFormed src := by
  subst hk
  obtain ⟨hreact, hqueue⟩ := not_or.mp hlive
  unfold Loop.subscribe
  split
  · next r hr =>
    -- a settled promise: the reaction is queued at once
    refine ⟨hL.registered, hL.nodup_reactions, hL.drained, fun k' r' hk' => ?_, ?_⟩
    · rcases List.mem_append.mp hk' with hk' | hk'
      · exact hL.queued k' r' hk'
      · obtain ⟨rfl, rfl⟩ := Prod.mk.inj (List.mem_singleton.mp hk')
        exact hr
    · rw [List.map_append]
      refine List.nodup_append.mpr ⟨hL.nodup_queue, List.nodup_singleton _, ?_⟩
      rintro k' hk' _ hs rfl
      rw [List.mem_singleton.mp hs] at hk'
      exact hqueue hk'
  · next hnone =>
    -- a pending promise: the reaction waits for it
    refine ⟨fun q k' hk' => ?_, fun q => ?_, fun q hq => ?_, hL.queued, hL.nodup_queue⟩
    · by_cases hqp : q = src k
      · simp only [hqp, Function.update_self] at hk'
        rcases List.mem_append.mp hk' with hk' | hk'
        · rw [hqp, hL.registered _ _ hk']
        · rw [hqp, List.mem_singleton.mp hk']
      · exact hL.registered q k' (by simpa [hqp] using hk')
    · by_cases hqp : q = src k
      · simp only [hqp, Function.update_self]
        refine List.nodup_append.mpr ⟨hL.nodup_reactions _, List.nodup_singleton _, ?_⟩
        rintro k' hk' _ hs rfl
        rw [List.mem_singleton.mp hs] at hk'
        exact hreact hk'
      · simpa [hqp] using hL.nodup_reactions q
    · have hqp : q ≠ src k := fun hqp => hq (by rw [hqp]; exact hnone)
      simpa [hqp] using hL.drained q hq

omit [DecidableEq P] in
theorem WellFormed.pop (hL : L.WellFormed src) {job : K × Settlement V E}
    (h : L.pop = some (job, L')) : L'.WellFormed src := by
  obtain ⟨rest, hq, rfl⟩ := pop_eq_some.mp h
  have hnodup := hL.nodup_queue
  rw [hq, List.map_cons, List.nodup_cons] at hnodup
  exact ⟨hL.registered, hL.nodup_reactions, hL.drained,
    fun k r hk => hL.queued k r (by simp [hq, hk]), hnodup.2⟩

/-! ## Reactions in order -/

/-- Wherever both reactions of a promise stand, the first one stands before the second. -/
def Precedes (L : Loop P K V E) (p : P) (a b : K) : Prop :=
  (L.reactions p).Pairwise (fun x y => x = b → y ≠ a) ∧
    (L.queue.map Prod.fst).Pairwise (fun x y => x = b → y ≠ a)

omit [DecidableEq P] in
theorem pairwise_of_notMem {ks : List K} (h : b ∉ ks) : ks.Pairwise fun x y => x = b → y ≠ a := by
  induction ks with
  | nil => exact List.Pairwise.nil
  | cons x ks ih =>
    obtain ⟨hne, hnot⟩ := not_or.mp fun hmem => h (List.mem_cons.mpr hmem)
    exact List.pairwise_cons.mpr ⟨fun _ _ hxb => absurd hxb.symm hne, ih hnot⟩

omit [DecidableEq P] in
/-- A reaction stands before one that is not live. -/
theorem precedes_of_not_live (hb : src b = p) (h : ¬ L.Live src b) : L.Precedes p a b := by
  obtain ⟨hreact, hqueue⟩ := not_or.mp h
  rw [hb] at hreact
  exact ⟨pairwise_of_notMem hreact, pairwise_of_notMem hqueue⟩

theorem Precedes.settle (h : L.Precedes p a b) (hL : L.WellFormed src) (ha : src a = p)
    (hb : src b = p) : (L.settle q r).Precedes p a b := by
  cases hq : L.settled q with
  | some r' => rwa [settle_of_settled (by simp [hq])]
  | none =>
    rw [settle_of_pending hq]
    have hmap : ((L.reactions q).map fun k => (k, r)).map Prod.fst = L.reactions q := by
      rw [List.map_map]
      exact List.map_id _
    by_cases hqp : q = p
    · -- the reactions of the promise move to the queue, where neither is yet
      subst hqp
      refine ⟨by simp, ?_⟩
      rw [List.map_append, hmap, List.pairwise_append]
      refine ⟨h.2, h.1, fun x hx y _ hxb => ?_⟩
      obtain ⟨⟨k, r'⟩, hmem, rfl⟩ := List.mem_map.mp hx
      obtain rfl : k = b := hxb
      have hset := hL.queued _ _ hmem
      rw [hb, hq] at hset
      cases hset
    · refine ⟨by simpa [Function.update_of_ne (Ne.symm hqp)] using h.1, ?_⟩
      rw [List.map_append, hmap, List.pairwise_append]
      have hnot : ∀ k ∈ L.reactions q, src k ≠ p :=
        fun k hk hp => hqp ((hL.registered q k hk).symm.trans hp)
      refine ⟨h.2, pairwise_of_notMem fun hmem => hnot b hmem hb, fun x _ y hy _ hya => ?_⟩
      exact hnot y hy (hya ▸ ha)

theorem Precedes.subscribe (h : L.Precedes p a b) (hb : src b = p) (hk : k = a → ¬ L.Live src b) :
    (L.subscribe q k).Precedes p a b := by
  have hcross : ∀ ks : List K, (b ∈ ks → L.Live src b) → ∀ x ∈ ks, ∀ y ∈ [k], x = b → y ≠ a := by
    rintro ks hks x hx y hy rfl rfl
    exact hk (List.mem_singleton.mp hy).symm (hks hx)
  unfold Loop.subscribe
  split
  · refine ⟨h.1, ?_⟩
    rw [List.map_append, List.pairwise_append]
    exact ⟨h.2, List.pairwise_singleton _ _, hcross _ Or.inr⟩
  · refine ⟨?_, h.2⟩
    by_cases hqp : p = q
    · subst hqp
      simp only [Function.update_self, List.pairwise_append]
      exact ⟨h.1, List.pairwise_singleton _ _, hcross _ fun hmem => Or.inl (hb.symm ▸ hmem)⟩
    · simpa only [Function.update_of_ne hqp] using h.1

omit [DecidableEq P] in
theorem Precedes.pop (h : L.Precedes p a b) {job : K × Settlement V E}
    (hpop : L.pop = some (job, L')) : L'.Precedes p a b := by
  obtain ⟨rest, hq, rfl⟩ := pop_eq_some.mp hpop
  refine ⟨h.1, ?_⟩
  have hqueue := h.2
  rw [hq, List.map_cons, List.pairwise_cons] at hqueue
  exact hqueue.2

omit [DecidableEq P] in
/-- **A reaction has run before one that it precedes.** -/
theorem Precedes.not_live_of_pop (h : L.Precedes p a b) (hL : L.WellFormed src) (ha : src a = p)
    (hb : src b = p) (hab : a ≠ b) (hpop : L.pop = some ((b, r), L')) : ¬ L.Live src a := by
  have hset := hL.settled_of_pop hpop
  obtain ⟨rest, hq, -⟩ := pop_eq_some.mp hpop
  have hqueue := h.2
  rw [hq, List.map_cons, List.pairwise_cons] at hqueue
  rintro (hreact | hmem)
  · -- the promise is settled, so nothing is registered there
    rw [ha, hL.drained p (by rw [← hb, hset]; simp)] at hreact
    exact absurd hreact List.not_mem_nil
  · rw [hq, List.map_cons] at hmem
    rcases List.mem_cons.mp hmem with heq | hmem
    · exact hab heq
    · exact hqueue.1 a hmem rfl rfl

/-! ## Counting live reactions -/

section Count

variable [DecidableEq K]

omit [DecidableEq P] in
instance (src : K → P) (L : Loop P K V E) (k : K) : Decidable (L.Live src k) :=
  inferInstanceAs (Decidable (_ ∨ _))

/-- The number of live reactions among some. -/
def liveCount (src : K → P) (ks : Finset K) (L : Loop P K V E) : ℕ :=
  (ks.filter fun k => L.Live src k).card

variable {ks : Finset K}

theorem liveCount_settle (hL : L.WellFormed src) :
    (L.settle p r).liveCount src ks = L.liveCount src ks := by
  unfold liveCount
  congr 1
  exact Finset.filter_congr fun k _ => live_settle hL

/-- Subscribing adds at most one live reaction. -/
theorem liveCount_subscribe_le (hk : src k = p) :
    (L.subscribe p k).liveCount src ks ≤ L.liveCount src ks + 1 := by
  have hsub : (ks.filter fun k' => (L.subscribe p k).Live src k') ⊆
      insert k (ks.filter fun k' => L.Live src k') := by
    intro k' hk'
    obtain ⟨hmem, hlive⟩ := Finset.mem_filter.mp hk'
    rcases (live_subscribe hk).mp hlive with rfl | hlive
    · exact Finset.mem_insert_self _ _
    · exact Finset.mem_insert_of_mem (Finset.mem_filter.mpr ⟨hmem, hlive⟩)
  exact (Finset.card_le_card hsub).trans (Finset.card_insert_le _ _)

omit [DecidableEq P] in
/-- Taking a microtask removes one live reaction. -/
theorem liveCount_pop_lt (hL : L.WellFormed src) (h : L.pop = some ((k, r), L')) (hk : k ∈ ks) :
    L'.liveCount src ks < L.liveCount src ks := by
  refine Finset.card_lt_card (Finset.ssubset_iff_of_subset ?_ |>.mpr ⟨k, ?_, ?_⟩)
  · intro k' hk'
    obtain ⟨hmem, hlive⟩ := Finset.mem_filter.mp hk'
    exact Finset.mem_filter.mpr ⟨hmem, ((live_pop hL h).mp hlive).2⟩
  · exact Finset.mem_filter.mpr ⟨hk, live_of_pop h⟩
  · intro hmem
    exact ((live_pop hL h).mp (Finset.mem_filter.mp hmem).2).1 rfl

end Count

end Loop

end EventDriven
