import QueueWorkerKit.Library.EventLoop
import QueueWorkerKit.Library.Machine

/-!
# Asynchronous functions

The body of an asynchronous function returns, throws, reads the state of its surroundings, or calls
an operation and awaits the promise of it. A call runs up to its first await; whenever the awaited
promise has settled it may be resumed, and runs up to the next one. In between anything may happen
to the surroundings. A rejection that is awaited is thrown on.

## Main definitions

* `AsyncBody`: the bodies, with their sequential composition
* `AsyncEnvironment`, `AsyncCall`, `AsyncEnvironment.machine`: the surroundings, a call, its runs
* `AsyncBody.Performs`, `AsyncCall.Performed`: what is left of a body after some answered calls, and
  a call that stands where such a body does
* `AbortSignal`, `AsyncBody.AtMost`, `AsyncBody.Within`: an abort of the surroundings, a bound on
  what a body still does after it, and such a bound wherever a call may be

## Main results

* `machine_follows`: a call drives its surroundings by their own events
* `performed_run`: **a call stands where its body does after the answers it was given**
* `Performed.settled`: the promises of a call that is over have settled
* `effects_after_abort`: **a bound that a body keeps everywhere bounds what it does after an abort**
-/

namespace EventDriven

variable {S Ev Op V E A B : Type*}

/-- The body of an asynchronous function. -/
inductive AsyncBody (S Op V E A : Type*)
  | returns (value : A)
  | throws (error : E)
  | reads (k : S → AsyncBody S Op V E A)
  | awaits (op : Op) (k : V → AsyncBody S Op V E A)

namespace AsyncBody

/-- One body after another. -/
def bind : AsyncBody S Op V E A → (A → AsyncBody S Op V E B) → AsyncBody S Op V E B
  | returns value, f => f value
  | throws error, _ => throws error
  | reads k, f => reads fun s => (k s).bind f
  | awaits op k, f => awaits op fun v => (k v).bind f

instance : Monad (AsyncBody S Op V E) where
  pure := returns
  bind := bind

@[simp] theorem pure_eq (a : A) : (pure a : AsyncBody S Op V E A) = returns a := rfl

section Bind

variable {A B : Type*} (f : A → AsyncBody S Op V E B)

@[simp] theorem returns_bind (value : A) : (returns value).bind f = f value := rfl

@[simp] theorem throws_bind (error : E) : (throws error).bind f = throws error := rfl

@[simp] theorem reads_bind (k : S → AsyncBody S Op V E A) :
    (reads k).bind f = reads fun s => (k s).bind f := rfl

@[simp] theorem awaits_bind (op : Op) (k : V → AsyncBody S Op V E A) :
    (awaits op k).bind f = awaits op fun v => (k v).bind f := rfl

theorem bind_assoc {C : Type*} (g : B → AsyncBody S Op V E C) (body : AsyncBody S Op V E A) :
    (body.bind f).bind g = body.bind fun a => (f a).bind g := by
  induction body with
  | returns value => rfl
  | throws error => rfl
  | reads k ih => exact congrArg reads (funext ih)
  | awaits op k ih => exact congrArg (awaits op) (funext ih)

end Bind

/-- The operation that a body starts with, if it does. -/
def pending : AsyncBody S Op V E A → List Op
  | awaits op _ => [op]
  | _ => []

@[simp] theorem pending_returns (value : A) :
    (returns value : AsyncBody S Op V E A).pending = [] := rfl

@[simp] theorem pending_throws (error : E) :
    (throws error : AsyncBody S Op V E A).pending = [] := rfl

@[simp] theorem pending_awaits (op : Op) (k : V → AsyncBody S Op V E A) :
    (awaits op k).pending = [op] := rfl

/-- What is left of a body after the reads that it starts with, all of them in one state. -/
def front (s : S) : AsyncBody S Op V E A → AsyncBody S Op V E A
  | reads k => (k s).front s
  | body => body

/-- What is left of a body after some answered calls, with reads of states that satisfy `P`. -/
inductive Performs (P : S → Prop) :
    AsyncBody S Op V E A → List (Op × V) → AsyncBody S Op V E A → Prop
  | refl (body : AsyncBody S Op V E A) : Performs P body [] body
  | reads {k : S → AsyncBody S Op V E A} {s : S} {w : List (Op × V)} {rest : AsyncBody S Op V E A}
      (read : P s) (tail : Performs P (k s) w rest) : Performs P (.reads k) w rest
  | awaits {op : Op} {k : V → AsyncBody S Op V E A} {v : V} {w : List (Op × V)}
      {rest : AsyncBody S Op V E A} (tail : Performs P (k v) w rest) :
      Performs P (.awaits op k) ((op, v) :: w) rest

variable {P Q : S → Prop} {s : S} {op : Op} {k : V → AsyncBody S Op V E A} {v : V}
  {body rest last : AsyncBody S Op V E A} {w w' : List (Op × V)}

theorem Performs.mono (h : body.Performs P w rest) (hPQ : ∀ s, P s → Q s) :
    body.Performs Q w rest := by
  induction h with
  | refl body => exact .refl body
  | reads read tail ih => exact .reads (hPQ _ read) ih
  | awaits tail ih => exact .awaits ih

theorem Performs.trans (h : body.Performs P w rest) (h' : rest.Performs P w' last) :
    body.Performs P (w ++ w') last := by
  induction h with
  | refl body => exact h'
  | reads read tail ih => exact .reads read (ih h')
  | awaits tail ih => exact .awaits (ih h')

theorem performs_returns {value : A} (h : (returns value).Performs P w rest) :
    w = [] ∧ rest = returns value := by
  cases h
  exact ⟨rfl, rfl⟩

theorem performs_throws {error : E} (h : (throws error).Performs P w rest) :
    w = [] ∧ rest = throws error := by
  cases h
  exact ⟨rfl, rfl⟩

theorem performs_reads {k : S → AsyncBody S Op V E A} (h : (reads k).Performs P w rest) :
    w = [] ∧ rest = reads k ∨ ∃ s, P s ∧ (k s).Performs P w rest := by
  cases h with
  | refl => exact Or.inl ⟨rfl, rfl⟩
  | reads read tail => exact Or.inr ⟨_, read, tail⟩

theorem performs_awaits (h : (awaits op k).Performs P w rest) :
    w = [] ∧ rest = awaits op k ∨ ∃ v w', w = (op, v) :: w' ∧ (k v).Performs P w' rest := by
  cases h with
  | refl => exact Or.inl ⟨rfl, rfl⟩
  | awaits tail => exact Or.inr ⟨_, _, rfl, tail⟩

/-- The reads that a body starts with, in a state that satisfies the predicate. -/
theorem performs_front (hs : P s) : body.Performs P [] (body.front s) := by
  induction body with
  | returns value => exact .refl _
  | throws error => exact .refl _
  | reads k ih => exact .reads hs (ih s)
  | awaits op k => exact .refl _

/-- An answer to the next call. -/
theorem Performs.answer (h : body.Performs P w (.awaits op k)) (v : V) :
    body.Performs P (w ++ [(op, v)]) (k v) := h.trans (.awaits (.refl (k v)))

theorem front_front : (body.front s).front s = body.front s := by
  induction body with
  | returns value => rfl
  | throws error => rfl
  | reads k ih => exact ih s
  | awaits op k => rfl

theorem front_ne_reads {k : S → AsyncBody S Op V E A} : body.front s ≠ .reads k := by
  induction body with
  | returns value => intro h; cases h
  | throws error => intro h; cases h
  | reads k' ih => exact ih s
  | awaits op k' => intro h; cases h

end AsyncBody

/-- The surroundings of a call: their events, those by which the call calls its operations, and the
settled promises of these, by number and operation. What is settled stays so. -/
structure AsyncEnvironment (S Ev Op V E : Type*) where
  machine : Machine S Ev
  call : ℕ → Op → Ev
  isCall : Ev → Bool
  promise : S → ℕ → Op → Option (Settlement V E)
  promise_of_step : ∀ {s e t n op r}, machine.step s e = some t → promise s n op = some r →
    promise t n op = some r

/-- Where a call stands: it awaits the promise of its operation of a number, or is settled. -/
inductive AsyncPhase (S Op V E A : Type*)
  | awaiting (n : ℕ) (op : Op) (k : V → AsyncBody S Op V E A)
  | settled (outcome : Settlement A E)

/-- A call: its surroundings, the operations it has called, and where it stands. -/
structure AsyncCall (S Op V E A : Type*) where
  environment : S
  calls : List Op
  phase : AsyncPhase S Op V E A

/-- Something happens in the surroundings of a call, or the call is resumed. -/
inductive AsyncEvent (Ev : Type*)
  | environment (e : Ev)
  | resume

namespace AsyncEnvironment

variable (env : AsyncEnvironment S Ev Op V E)

/-- The body runs up to its next await, or to its end. -/
def advance (s : S) (calls : List Op) (body : AsyncBody S Op V E A) :
    Option (AsyncCall S Op V E A) :=
  match body.front s with
  | .returns value => some ⟨s, calls, .settled (.fulfilled value)⟩
  | .throws error => some ⟨s, calls, .settled (.rejected error)⟩
  -- there is no read left
  | .reads _ => none
  | .awaits op k => (env.machine.step s (env.call calls.length op)).map fun t =>
      ⟨t, calls ++ [op], .awaiting calls.length op k⟩

/-- The function is called. -/
def start (s : S) (body : AsyncBody S Op V E A) : Option (AsyncCall S Op V E A) :=
  env.advance s [] body

/-- The runs of a call. -/
def asyncMachine : Machine (AsyncCall S Op V E A) (AsyncEvent Ev) where
  step c
    | .environment e =>
      if env.isCall e then none
      else (env.machine.step c.environment e).map fun t => { c with environment := t }
    | .resume =>
      match c.phase with
      | .settled _ => none
      | .awaiting n op k =>
        match env.promise c.environment n op with
        | none => none
        | some (.fulfilled v) => env.advance c.environment c.calls (k v)
        | some (.rejected error) => some { c with phase := .settled (.rejected error) }

/-- The events of the surroundings by which a body runs up to its next await. -/
def callEvents (s : S) (calls : List Op) (body : AsyncBody S Op V E A) : List Ev :=
  match body.front s with
  | .awaits op _ => [env.call calls.length op]
  | _ => []

/-- The events of the surroundings that an event of a call amounts to. -/
def forwarded (c : AsyncCall S Op V E A) : AsyncEvent Ev → List Ev
  | .environment e => [e]
  | .resume =>
    match c.phase with
    | .settled _ => []
    | .awaiting n op k =>
      match env.promise c.environment n op with
      | some (.fulfilled v) => env.callEvents c.environment c.calls (k v)
      | _ => []

variable {env} {s t : S} {calls : List Op} {body : AsyncBody S Op V E A}
  {c d : AsyncCall S Op V E A} {e : AsyncEvent Ev} {es : List (AsyncEvent Ev)}

/-! ## What a step does -/

/-- How a body runs up to its next await, or to its end. -/
inductive Advances (env : AsyncEnvironment S Ev Op V E) (s : S) (calls : List Op)
    (body : AsyncBody S Op V E A) : AsyncCall S Op V E A → Prop
  | returned (value : A) (front : body.front s = .returns value) :
      Advances env s calls body ⟨s, calls, .settled (.fulfilled value)⟩
  | threw (error : E) (front : body.front s = .throws error) :
      Advances env s calls body ⟨s, calls, .settled (.rejected error)⟩
  | called (op : Op) (k : V → AsyncBody S Op V E A) (t : S) (front : body.front s = .awaits op k)
      (step : env.machine.step s (env.call calls.length op) = some t) :
      Advances env s calls body ⟨t, calls ++ [op], .awaiting calls.length op k⟩

theorem advances_of_advance (h : env.advance s calls body = some d) :
    Advances env s calls body d := by
  unfold advance at h
  split at h
  · next value hfront =>
    obtain rfl := Option.some.inj h
    exact .returned value hfront
  · next error hfront =>
    obtain rfl := Option.some.inj h
    exact .threw error hfront
  · next k hfront => exact absurd hfront AsyncBody.front_ne_reads
  · next op k hfront =>
    obtain ⟨t, hstep, rfl⟩ := Option.map_eq_some_iff.mp h
    exact .called op k t hfront hstep

/-- What each event does where it can happen. -/
inductive Step (env : AsyncEnvironment S Ev Op V E) (c : AsyncCall S Op V E A) :
    AsyncEvent Ev → AsyncCall S Op V E A → Prop
  | environment (e : Ev) (t : S) (foreign : env.isCall e = false)
      (step : env.machine.step c.environment e = some t) :
      Step env c (.environment e) { c with environment := t }
  | fulfilled (n : ℕ) (op : Op) (k : V → AsyncBody S Op V E A) (v : V) (d : AsyncCall S Op V E A)
      (phase : c.phase = .awaiting n op k)
      (promise : env.promise c.environment n op = some (.fulfilled v))
      (advances : Advances env c.environment c.calls (k v) d) : Step env c .resume d
  | rejected (n : ℕ) (op : Op) (k : V → AsyncBody S Op V E A) (error : E)
      (phase : c.phase = .awaiting n op k)
      (promise : env.promise c.environment n op = some (.rejected error)) :
      Step env c .resume { c with phase := .settled (.rejected error) }

/-- **What a step does**: one case for each way in which a call goes on. -/
theorem step_cases (hstep : env.asyncMachine.step c e = some d) : Step env c e d := by
  cases e with
  | environment e =>
    simp only [asyncMachine] at hstep
    split_ifs at hstep with hcall
    obtain ⟨t, ht, rfl⟩ := Option.map_eq_some_iff.mp hstep
    exact .environment e t (by simpa using hcall) ht
  | resume =>
    simp only [asyncMachine] at hstep
    split at hstep
    · cases hstep
    · next n op k hphase =>
      split at hstep
      · cases hstep
      · next v hpromise => exact .fulfilled n op k v d hphase hpromise (advances_of_advance hstep)
      · next error hpromise =>
        obtain rfl := Option.some.inj hstep
        exact .rejected n op k error hphase hpromise

/-- A call begins with what its body reads in the state it is called in. -/
theorem start_front : env.start s (body.front s) = env.start s body := by
  simp only [start, advance, AsyncBody.front_front]

/-! ## The surroundings of a call -/

theorem Advances.run_callEvents (h : Advances env s calls body d) :
    env.machine.run s (env.callEvents s calls body) = some d.environment := by
  cases h with
  | returned value front => simp [callEvents, front]
  | threw error front => simp [callEvents, front]
  | called op k t front step => simp [callEvents, front, Machine.run, step]

/-- **A call drives its surroundings** by their own events. -/
theorem machine_follows : (env.asyncMachine (A := A)).Follows env.machine AsyncCall.environment
    env.forwarded := by
  intro c e d hstep
  cases step_cases hstep with
  | environment e t foreign step => simp [forwarded, Machine.run, step]
  | fulfilled n op k v d phase promise advances =>
    simpa [forwarded, phase, promise] using advances.run_callEvents
  | rejected n op k error phase promise => simp [forwarded, phase, promise]

theorem Advances.calls_prefix (h : Advances env s calls body d) : calls <+: d.calls := by
  cases h with
  | returned value front => exact List.prefix_refl _
  | threw error front => exact List.prefix_refl _
  | called op k t front step => exact List.prefix_append _ _

/-- A call only adds to its operations. -/
theorem calls_run (hrun : env.asyncMachine.run c es = some d) : c.calls <+: d.calls := by
  refine Machine.run_invariant (G := fun _ _ => True)
    (I := fun d : AsyncCall S Op V E A => c.calls <+: d.calls) (fun d e d' hd _ hstep => ?_)
    (List.prefix_refl _) Machine.stepsMeet_true hrun
  cases step_cases hstep with
  | environment e t foreign step => exact hd
  | fulfilled n op k v d' phase promise advances => exact hd.trans advances.calls_prefix
  | rejected n op k error phase promise => exact hd

/-- The surroundings have come from one state to another. -/
def Reaches (env : AsyncEnvironment S Ev Op V E) (s t : S) : Prop :=
  ∃ es, env.machine.run s es = some t

theorem reaches_refl (s : S) : env.Reaches s s := ⟨[], rfl⟩

theorem Reaches.trans {u : S} (h : env.Reaches s t) (h' : env.Reaches t u) : env.Reaches s u := by
  obtain ⟨es, hes⟩ := h
  obtain ⟨fs, hfs⟩ := h'
  exact ⟨es ++ fs, Machine.run_append.mpr ⟨t, hes, hfs⟩⟩

theorem reaches_of_step (hstep : env.asyncMachine.step c e = some d) :
    env.Reaches c.environment d.environment := ⟨_, machine_follows c e d hstep⟩

theorem Reaches.promise (h : env.Reaches s t) {n : ℕ} {op : Op} {r : Settlement V E}
    (hr : env.promise s n op = some r) : env.promise t n op = some r := by
  obtain ⟨es, hes⟩ := h
  exact Machine.run_invariant (M := env.machine) (G := fun _ _ => True)
    (I := fun s => env.promise s n op = some r)
    (fun _ _ _ hs _ hstep => env.promise_of_step hstep hs) hr Machine.stepsMeet_true hes

/-! ## What a call has performed -/

/-- The states that the surroundings may have been in between two states. -/
def Between (env : AsyncEnvironment S Ev Op V E) (s t u : S) : Prop :=
  env.Reaches s u ∧ env.Reaches u t

theorem Between.mono {u v : S} (h : env.Between s t u) (hreaches : env.Reaches t v) :
    env.Between s v u := ⟨h.1, h.2.trans hreaches⟩

/-- The promise of an operation of a number is fulfilled. -/
def Fulfilled (env : AsyncEnvironment S Ev Op V E) (s : S) (n : ℕ) (op : Op) : Prop :=
  ∃ v, env.promise s n op = some (.fulfilled v)

theorem Fulfilled.ne_none {n : ℕ} {op : Op} (h : env.Fulfilled s n op) :
    env.promise s n op ≠ none := by
  obtain ⟨v, hv⟩ := h
  rw [hv]
  exact Option.some_ne_none _

/-- The answers to the first operations of a call are those of their promises. -/
def Answers (env : AsyncEnvironment S Ev Op V E) (s : S) (w : List (Op × V)) : Prop :=
  ∀ i op v, w[i]? = some (op, v) → env.promise s i op = some (.fulfilled v)

section Answers

variable {w : List (Op × V)}

theorem Answers.reaches (h : env.Answers s w) (hreaches : env.Reaches s t) : env.Answers t w :=
  fun i op v hi => hreaches.promise (h i op v hi)

theorem Answers.concat (h : env.Answers s w) {op : Op} {v : V}
    (hpromise : env.promise s w.length op = some (.fulfilled v)) :
    env.Answers s (w ++ [(op, v)]) := by
  intro i op' v' hi
  rw [List.getElem?_append] at hi
  split_ifs at hi with hlt
  · exact h i op' v' hi
  · rw [List.getElem?_singleton] at hi
    split_ifs at hi with hzero
    obtain ⟨rfl, rfl⟩ := Prod.mk.inj (Option.some.inj hi)
    obtain rfl : i = w.length := by omega
    exact hpromise

theorem Answers.fulfilled (h : env.Answers s w) {i : ℕ} {o : Op}
    (ho : (w.map Prod.fst)[i]? = some o) : env.Fulfilled s i o := by
  rw [List.getElem?_map] at ho
  obtain ⟨⟨op, v⟩, hi, rfl⟩ := Option.map_eq_some_iff.mp ho
  exact ⟨v, h i op v hi⟩

/-- A call that was answered, or the one that was not. -/
theorem Answers.fulfilled_or_last (h : env.Answers s w) {op : Op} {i : ℕ} {o : Op}
    (ho : (w.map Prod.fst ++ [op])[i]? = some o) :
    env.Fulfilled s i o ∨ i = w.length ∧ o = op := by
  rw [List.getElem?_append] at ho
  split_ifs at ho with hlt
  · exact Or.inl (h.fulfilled ho)
  · rw [List.getElem?_singleton] at ho
    split_ifs at ho with hzero
    rw [List.length_map] at hlt hzero
    exact Or.inr ⟨by omega, (Option.some.inj ho).symm⟩

end Answers

/-- A call that began in a state stands where its body does after the answers it was given, with
reads of states that its surroundings have been in since. -/
inductive Performed (env : AsyncEnvironment S Ev Op V E) (s : S) (body : AsyncBody S Op V E A)
    (c : AsyncCall S Op V E A) : Prop
  | awaiting (w : List (Op × V)) (op : Op) (k : V → AsyncBody S Op V E A)
      (phase : c.phase = .awaiting w.length op k) (calls : c.calls = w.map Prod.fst ++ [op])
      (performs : body.Performs (env.Between s c.environment) w (.awaits op k))
      (answers : env.Answers c.environment w)
  | returned (w : List (Op × V)) (value : A) (phase : c.phase = .settled (.fulfilled value))
      (calls : c.calls = w.map Prod.fst)
      (performs : body.Performs (env.Between s c.environment) w (.returns value))
      (answers : env.Answers c.environment w)
  | threw (w : List (Op × V)) (error : E) (phase : c.phase = .settled (.rejected error))
      (calls : c.calls = w.map Prod.fst)
      (performs : body.Performs (env.Between s c.environment) w (.throws error))
      (answers : env.Answers c.environment w)
  | rejected (w : List (Op × V)) (op : Op) (k : V → AsyncBody S Op V E A) (error : E)
      (phase : c.phase = .settled (.rejected error)) (calls : c.calls = w.map Prod.fst ++ [op])
      (performs : body.Performs (env.Between s c.environment) w (.awaits op k))
      (answers : env.Answers c.environment w)
      (promise : env.promise c.environment w.length op = some (.rejected error))

/-- A body that has come to a point runs on from there. -/
theorem Advances.performed {w : List (Op × V)} {rest : AsyncBody S Op V E A}
    (h : Advances env t (w.map Prod.fst) rest d) (hreaches : env.Reaches s t)
    (hperforms : body.Performs (env.Between s t) w rest) (hanswers : env.Answers t w) :
    Performed env s body d := by
  have hfront : rest.Performs (env.Between s t) [] (rest.front t) :=
    AsyncBody.performs_front ⟨hreaches, reaches_refl t⟩
  have hall := hperforms.trans hfront
  rw [List.append_nil] at hall
  cases h with
  | returned value front => exact .returned w value rfl rfl (front ▸ hall) hanswers
  | threw error front => exact .threw w error rfl rfl (front ▸ hall) hanswers
  | called op k v front step =>
    have htv : env.Reaches t v := ⟨[_], Machine.run_cons.mpr ⟨v, step, rfl⟩⟩
    refine .awaiting w op k ?_ rfl ((front ▸ hall).mono fun u hu => hu.mono htv)
      (hanswers.reaches htv)
    rw [List.length_map]

theorem performed_step (hc : env.Reaches s c.environment ∧ Performed env s body c)
    (hstep : env.asyncMachine.step c e = some d) :
    env.Reaches s d.environment ∧ Performed env s body d := by
  obtain ⟨hs, hc⟩ := hc
  have hreaches := reaches_of_step hstep
  refine ⟨hs.trans hreaches, ?_⟩
  cases step_cases hstep with
  | environment e t foreign step =>
    have hmono : ∀ u, env.Between s c.environment u → env.Between s t u :=
      fun u hu => hu.mono hreaches
    cases hc with
    | awaiting w op k phase calls performs answers =>
      exact .awaiting w op k phase calls (performs.mono hmono) (answers.reaches hreaches)
    | returned w value phase calls performs answers =>
      exact .returned w value phase calls (performs.mono hmono) (answers.reaches hreaches)
    | threw w error phase calls performs answers =>
      exact .threw w error phase calls (performs.mono hmono) (answers.reaches hreaches)
    | rejected w op k error phase calls performs answers promise =>
      exact .rejected w op k error phase calls (performs.mono hmono) (answers.reaches hreaches)
        (hreaches.promise promise)
  | fulfilled n op k v d phase promise advances =>
    cases hc with
    | awaiting w op' k' phase' calls performs answers =>
      obtain ⟨rfl, rfl, rfl⟩ := AsyncPhase.awaiting.inj (phase.symm.trans phase')
      have hcalls : c.calls = (w ++ [(op, v)]).map Prod.fst := by
        rw [calls, List.map_append, List.map_singleton]
      rw [hcalls] at advances
      exact advances.performed hs (performs.answer v) (answers.concat promise)
    | returned w value phase' => cases phase.symm.trans phase'
    | threw w error phase' => cases phase.symm.trans phase'
    | rejected w op' k' error phase' => cases phase.symm.trans phase'
  | rejected n op k error phase promise =>
    cases hc with
    | awaiting w op' k' phase' calls performs answers =>
      obtain ⟨rfl, rfl, rfl⟩ := AsyncPhase.awaiting.inj (phase.symm.trans phase')
      exact .rejected w op k error rfl calls performs answers promise
    | returned w value phase' => cases phase.symm.trans phase'
    | threw w error' phase' => cases phase.symm.trans phase'
    | rejected w op' k' error' phase' => cases phase.symm.trans phase'

/-- The surroundings of a call are reached from those it was called in. -/
theorem Advances.reaches (h : Advances env s calls body d) : env.Reaches s d.environment :=
  ⟨_, h.run_callEvents⟩

/-- **A call stands where its body does** after the answers it was given. -/
theorem performed_run (hstart : env.start s body = some c)
    (hrun : env.asyncMachine.run c es = some d) : Performed env s body d := by
  have hadvances := advances_of_advance hstart
  have hc : Performed env s body c :=
    hadvances.performed (w := []) (reaches_refl s) (.refl body) fun i op v hi => by simp at hi
  exact (Machine.run_invariant (G := fun _ _ => True)
    (fun _ _ _ hc _ hstep => performed_step hc hstep) ⟨hadvances.reaches, hc⟩
    Machine.stepsMeet_true hrun).2

/-- The awaited operation is the last that was called. -/
theorem Performed.called (h : Performed env s body c) {n : ℕ} {op : Op}
    {k : V → AsyncBody S Op V E A} (hphase : c.phase = .awaiting n op k) :
    c.calls[n]? = some op := by
  cases h with
  | awaiting w op' k' phase calls performs answers =>
    obtain ⟨rfl, rfl, rfl⟩ := AsyncPhase.awaiting.inj (hphase.symm.trans phase)
    simp [calls]
  | returned w value phase => cases hphase.symm.trans phase
  | threw w error phase => cases hphase.symm.trans phase
  | rejected w op' k' error phase => cases hphase.symm.trans phase

/-- **The promises of a call that is over have settled.** -/
theorem Performed.settled (h : Performed env s body c) {outcome : Settlement A E}
    (hphase : c.phase = .settled outcome) {i : ℕ} {o : Op} (ho : c.calls[i]? = some o) :
    env.promise c.environment i o ≠ none := by
  cases h with
  | awaiting w op k phase => cases hphase.symm.trans phase
  | returned w value phase calls performs answers => exact (answers.fulfilled (calls ▸ ho)).ne_none
  | threw w error phase calls performs answers => exact (answers.fulfilled (calls ▸ ho)).ne_none
  | rejected w op k error phase calls performs answers promise =>
    rcases answers.fulfilled_or_last (calls ▸ ho) with hfulfilled | ⟨rfl, rfl⟩
    · exact hfulfilled.ne_none
    · rw [promise]
      exact Option.some_ne_none _

/-- The surroundings of a call are reached from those it was called in. -/
theorem reaches_run (hstart : env.start s body = some c)
    (hrun : env.asyncMachine.run c es = some d) : env.Reaches s d.environment := by
  have hc : env.Reaches s c.environment := (advances_of_advance hstart).reaches
  exact hc.trans (machine_follows.run hrun)

end AsyncEnvironment

/-! ## Aborts -/

/-- The promise of an operation of a number is never fulfilled. -/
def AsyncEnvironment.Lost (env : AsyncEnvironment S Ev Op V E) (s : S) (n : ℕ) (op : Op) : Prop :=
  ∀ t, env.Reaches s t → ¬ env.Fulfilled t n op

/-- An abort of the surroundings, which stays, and the operations that fail after it. -/
structure AbortSignal (env : AsyncEnvironment S Ev Op V E) where
  aborted : S → Prop
  refuses : Op → Bool
  aborted_of_step : ∀ {s e t}, env.machine.step s e = some t → aborted s → aborted t
  lost_of_refuses : ∀ {s n op t}, aborted s → refuses op = true →
    env.machine.step s (env.call n op) = some t → env.Lost t n op

section Abort

variable {env : AsyncEnvironment S Ev Op V E} (signal : AbortSignal env) (effect : Op → Bool)

/-- The number of effects among some operations. -/
def effects (calls : List Op) : ℕ := calls.countP effect

namespace AsyncBody

/-- The cost of an operation. -/
def cost (op : Op) : ℕ := if effect op then 1 else 0

/-- Run after an abort, a body calls at most a number of effects. -/
def AtMost : AsyncBody S Op V E A → ℕ → Prop
  | returns _, _ => True
  | throws _, _ => True
  | reads k, n => ∀ s, signal.aborted s → (k s).AtMost n
  | awaits op k, n => cost effect op ≤ n ∧
      (signal.refuses op = false → ∀ v, (k v).AtMost (n - cost effect op))

/-- Wherever an abort meets a body, the operation that it awaits bounds the effects that are called
after it. -/
def Within (bound : Op → ℕ) : AsyncBody S Op V E A → Prop
  | returns _ => True
  | throws _ => True
  | reads k => ∀ s, (k s).Within bound
  | awaits op k => ∀ v, (k v).AtMost signal effect (bound op) ∧ (k v).Within bound

variable {signal effect} {body : AsyncBody S Op V E A} {s : S} {n m : ℕ} {bound : Op → ℕ}

theorem AtMost.front (h : body.AtMost signal effect n) (hs : signal.aborted s) :
    (body.front s).AtMost signal effect n := by
  induction body with
  | returns value => exact h
  | throws error => exact h
  | reads k ih => exact ih s (h s hs)
  | awaits op k => exact h

theorem Within.front (h : body.Within signal effect bound) :
    (body.front s).Within signal effect bound := by
  induction body with
  | returns value => exact h
  | throws error => exact h
  | reads k ih => exact ih s (h s)
  | awaits op k => exact h

theorem AtMost.mono (h : body.AtMost signal effect n) (hnm : n ≤ m) :
    body.AtMost signal effect m := by
  induction body generalizing n m with
  | returns value => trivial
  | throws error => trivial
  | reads k ih => exact fun s hs => ih s (h s hs) hnm
  | awaits op k ih =>
    refine ⟨h.1.trans hnm, fun hrefuses v => ih v (h.2 hrefuses v) ?_⟩
    omega

end AsyncBody

namespace AsyncEnvironment

variable {signal effect} {s t : S} {calls : List Op} {body : AsyncBody S Op V E A} {n total : ℕ}
  {op : Op} {bound : Op → ℕ} {c d d' : AsyncCall S Op V E A} {e : AsyncEvent Ev}
  {es fs : List (AsyncEvent Ev)}

theorem Reaches.aborted (h : env.Reaches s t) (hs : signal.aborted s) : signal.aborted t := by
  obtain ⟨es, hes⟩ := h
  exact Machine.run_invariant (M := env.machine) (G := fun _ _ => True) (I := signal.aborted)
    (fun _ _ _ hs _ hstep => signal.aborted_of_step hstep hs) hs Machine.stepsMeet_true hes

theorem Lost.reaches (h : env.Lost s n op) (hreaches : env.Reaches s t) : env.Lost t n op :=
  fun u hu => h u (hreaches.trans hu)

/-- A promise that is rejected is never fulfilled. -/
theorem lost_of_rejected {error : E} (h : env.promise s n op = some (.rejected error)) :
    env.Lost s n op := by
  rintro t hreaches ⟨v, hv⟩
  cases (hreaches.promise h).symm.trans hv

/-- A call whose awaited operation bounds what comes after it. -/
def Cooperates (signal : AbortSignal env) (effect : Op → Bool) (bound : Op → ℕ)
    (c : AsyncCall S Op V E A) : Prop :=
  ∀ i op k, c.phase = .awaiting i op k →
    ∀ v, (k v).AtMost signal effect (bound op) ∧ (k v).Within signal effect bound

theorem Advances.cooperates (h : Advances env s calls body d)
    (hbody : body.Within signal effect bound) : Cooperates signal effect bound d := by
  have hfront : (body.front s).Within signal effect bound := hbody.front
  cases h with
  | returned value front => exact fun i op k hphase => by cases hphase
  | threw error front => exact fun i op k hphase => by cases hphase
  | called op k t front step =>
    intro i op' k' hphase
    obtain ⟨-, rfl, rfl⟩ := AsyncPhase.awaiting.inj hphase
    rw [front] at hfront
    exact hfront

theorem cooperates_step (hc : Cooperates signal effect bound c)
    (hstep : env.asyncMachine.step c e = some d) : Cooperates signal effect bound d := by
  cases step_cases hstep with
  | environment e t foreign step => exact hc
  | fulfilled i op k v d phase promise advances => exact advances.cooperates (hc i op k phase v).2
  | rejected i op k error phase promise => exact fun i' op' k' hphase => by cases hphase

/-- After an abort, with a total of effects that is not exceeded: what is left is within the rest of
it, or the awaited promise is never fulfilled. -/
structure Winds (signal : AbortSignal env) (effect : Op → Bool) (total : ℕ)
    (c : AsyncCall S Op V E A) : Prop where
  aborted : signal.aborted c.environment
  effects : effects effect c.calls ≤ total
  rest : ∀ i op k, c.phase = .awaiting i op k → env.Lost c.environment i op ∨
    ∀ v, (k v).AtMost signal effect (total - EventDriven.effects effect c.calls)

theorem effects_concat (op : Op) :
    effects effect (calls ++ [op]) = effects effect calls + AsyncBody.cost effect op := by
  rw [effects, List.countP_append, List.countP_singleton]
  rfl

theorem Advances.winds (h : Advances env s calls body d) (hs : signal.aborted s)
    (htotal : effects effect calls ≤ total)
    (hbody : body.AtMost signal effect (total - effects effect calls)) :
    Winds signal effect total d := by
  have hfront : (body.front s).AtMost signal effect (total - effects effect calls) :=
    hbody.front hs
  cases h with
  | returned value front => exact ⟨hs, htotal, fun i op k hphase => by cases hphase⟩
  | threw error front => exact ⟨hs, htotal, fun i op k hphase => by cases hphase⟩
  | called op k t front step =>
    rw [front] at hfront
    obtain ⟨hcost, hrest⟩ := hfront
    refine ⟨signal.aborted_of_step step hs, ?_, fun i op' k' hphase => ?_⟩
    · rw [effects_concat]
      omega
    · obtain ⟨rfl, rfl, rfl⟩ := AsyncPhase.awaiting.inj hphase
      cases hrefuses : signal.refuses op with
      | true => exact Or.inl (signal.lost_of_refuses hs hrefuses step)
      | false =>
        refine Or.inr fun v => ?_
        rw [effects_concat, ← Nat.sub_sub]
        exact hrest hrefuses v

theorem winds_step (hc : Winds signal effect total c)
    (hstep : env.asyncMachine.step c e = some d) : Winds signal effect total d := by
  have hreaches := reaches_of_step hstep
  cases step_cases hstep with
  | environment e t foreign step =>
    refine ⟨hreaches.aborted hc.aborted, hc.effects, fun i op k hphase => ?_⟩
    exact (hc.rest i op k hphase).imp_left fun hlost => hlost.reaches hreaches
  | fulfilled i op k v d phase promise advances =>
    rcases hc.rest i op k phase with hlost | hbound
    · exact absurd ⟨v, promise⟩ (hlost _ (reaches_refl _))
    · exact advances.winds hc.aborted hc.effects (hbound v)
  | rejected i op k error phase promise =>
    exact ⟨hc.aborted, hc.effects, fun i' op' k' hphase => by cases hphase⟩

/-- **A bound that a body keeps everywhere bounds what it does after an abort**, at whatever point
of a call that comes. Nothing is done if the awaited promise is never fulfilled. -/
theorem effects_after_abort (hstart : env.start s body = some c)
    (hbody : body.Within signal effect bound) (hrun : env.asyncMachine.run c es = some d)
    (haborted : signal.aborted d.environment)
    (hn : ∀ i op k, d.phase = .awaiting i op k → env.Lost d.environment i op ∨ bound op ≤ n)
    (hrun' : env.asyncMachine.run d fs = some d') :
    effects effect d'.calls ≤ effects effect d.calls + n := by
  have hcooperates : Cooperates signal effect bound d :=
    Machine.run_invariant (G := fun _ _ => True)
      (fun _ _ _ hc _ hstep => cooperates_step hc hstep)
      ((advances_of_advance hstart).cooperates hbody) Machine.stepsMeet_true hrun
  have hd : Winds signal effect (effects effect d.calls + n) d := by
    refine ⟨haborted, Nat.le_add_right _ _, fun i op k hphase => ?_⟩
    refine (hn i op k hphase).imp_right fun hbound v => ?_
    rw [Nat.add_sub_cancel_left]
    exact (hcooperates i op k hphase v).1.mono hbound
  exact (Machine.run_invariant (G := fun _ _ => True)
    (fun _ _ _ hc _ hstep => winds_step hc hstep) hd Machine.stepsMeet_true hrun').effects

end AsyncEnvironment

end Abort

end EventDriven
