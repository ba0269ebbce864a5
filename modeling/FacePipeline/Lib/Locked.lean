import FacePipeline.Lib.Runs
import Mathlib.Logic.Function.Basic
import Mathlib.Tactic.SplitIfs

/-!
# Calls under one mutex

A call takes the mutex, runs its body and releases the mutex. The body is made of atomic steps: steps on what
the mutex guards, and loads of one atomic variable, to which others store without the mutex. A run is any
interleaving of the steps of the calling threads with the stores.

A body that loads the variable at most once is atomic (`run_atomic`): the calls, the returns and the stores of
a run are those of a run of a system in which the whole call is one step, somewhere between its call and its
return. That point is the load, or the release of the mutex where nothing is loaded. What every call keeps in
that system therefore holds whenever the mutex is free (`kept_of_run`).
-/

namespace Locked

open Runs

variable {ι ρ σ ο β : Type*}

/-- The body of a call, as long as it holds the mutex. -/
inductive Code (ρ σ β : Type*) where
  | ret (result : β)
  /-- A step on the guarded state; what is next depends on the state that the step finds. -/
  | act (f : σ → σ) (next : σ → Code ρ σ β)
  /-- A load of the atomic variable. -/
  | load (next : ρ → Code ρ σ β)

namespace Code

/-- The body runs without interruption. -/
def exec (r : ρ) : Code ρ σ β → σ → β × σ
  | ret b, s => (b, s)
  | act f next, s => exec r (next s) (f s)
  | load next, s => exec r (next r) s

def LoadFree : Code ρ σ β → Prop
  | ret _ => True
  | act _ next => ∀ s, LoadFree (next s)
  | load _ => False

def LoadsOnce : Code ρ σ β → Prop
  | ret _ => True
  | act _ next => ∀ s, LoadsOnce (next s)
  | load next => ∀ r, LoadFree (next r)

theorem LoadFree.exec_eq {c : Code ρ σ β} (h : c.LoadFree) (r r' : ρ) (s : σ) : c.exec r s = c.exec r' s := by
  induction c generalizing s with
  | ret b => rfl
  | act f next ih => exact ih s (h s) (f s)
  | load next ih => exact h.elim

theorem LoadFree.loadsOnce {c : Code ρ σ β} (h : c.LoadFree) : c.LoadsOnce := by
  induction c with
  | ret b => trivial
  | act f next ih => exact fun s => ih s (h s)
  | load next ih => exact h.elim

/-! A body that branches is treated branch by branch. -/

variable {p : Prop} [Decidable p] {c c' : Code ρ σ β}

theorem LoadFree.ite (h : p → c.LoadFree) (h' : ¬p → c'.LoadFree) : (if p then c else c').LoadFree := by
  split_ifs with hp
  · exact h hp
  · exact h' hp

theorem LoadsOnce.ite (h : p → c.LoadsOnce) (h' : ¬p → c'.LoadsOnce) : (if p then c else c').LoadsOnce := by
  split_ifs with hp
  · exact h hp
  · exact h' hp

theorem exec_ite (r : ρ) (s : σ) :
    (if p then c else c').exec r s = if p then c.exec r s else c'.exec r s := by
  split_ifs <;> rfl

end Code

/-! ### The system of the calling threads -/

inductive Thread (ρ σ ο β : Type*) where
  | idle
  /-- The call has begun and waits for the mutex. -/
  | called (op : ο)
  | inside (code : Code ρ σ β)
  /-- The mutex is released; the call has not returned yet. -/
  | unlocked (result : β)

structure State (ι ρ σ ο β : Type*) where
  guarded : σ
  atomic : ρ
  holder : Option ι := none
  thread : ι → Thread ρ σ ο β := fun _ => .idle

/-- What the clients see. -/
inductive Visible (ι ρ ο β : Type*) where
  | call (i : ι) (op : ο)
  | ret (i : ι) (result : β)
  | store (value : ρ)
  deriving DecidableEq

inductive Event (ι ρ ο β : Type*) where
  | visible (v : Visible ι ρ ο β)
  | lock (i : ι)
  /-- The next step of the body. -/
  | act (i : ι)
  | unlock (i : ι)
  deriving DecidableEq

def Event.history : Event ι ρ ο β → List (Visible ι ρ ο β)
  | .visible v => [v]
  | _ => []

variable [DecidableEq ι]

def State.put (i : ι) (th : Thread ρ σ ο β) (s : State ι ρ σ ο β) : State ι ρ σ ο β :=
  { s with thread := Function.update s.thread i th }

def step [DecidableEq β] (body : ο → Code ρ σ β) (e : Event ι ρ ο β) (s : State ι ρ σ ο β) : Option (State ι ρ σ ο β) :=
  match e with
  | .visible (.call i op) =>
      match s.thread i with
      | .idle => some (s.put i (.called op))
      | _ => none
  | .visible (.ret i result) =>
      match s.thread i with
      | .unlocked b => if b = result then some (s.put i .idle) else none
      | _ => none
  | .visible (.store value) => some { s with atomic := value }
  | .lock i =>
      match s.holder, s.thread i with
      | none, .called op => some { s.put i (.inside (body op)) with holder := some i }
      | _, _ => none
  | .act i =>
      match s.thread i with
      | .inside (.act f next) => some { s.put i (.inside (next s.guarded)) with guarded := f s.guarded }
      | .inside (.load next) => some (s.put i (.inside (next s.atomic)))
      | _ => none
  | .unlock i =>
      match s.thread i with
      | .inside (.ret b) => some { s.put i (.unlocked b) with holder := none }
      | _ => none

/-! ### The system in which a call is one step -/

inductive AtomicThread (ο β : Type*) where
  | idle
  | called (op : ο)
  | done (result : β)
  deriving DecidableEq

structure Atomic (ι ρ σ ο β : Type*) where
  guarded : σ
  atomic : ρ
  thread : ι → AtomicThread ο β := fun _ => .idle

inductive AtomicEvent (ι ρ ο β : Type*) where
  | visible (v : Visible ι ρ ο β)
  /-- The whole call. -/
  | commit (i : ι)
  deriving DecidableEq

def AtomicEvent.history : AtomicEvent ι ρ ο β → List (Visible ι ρ ο β)
  | .visible v => [v]
  | .commit _ => []

def Atomic.put (i : ι) (th : AtomicThread ο β) (t : Atomic ι ρ σ ο β) : Atomic ι ρ σ ο β :=
  { t with thread := Function.update t.thread i th }

def Atomic.step [DecidableEq β] (apply : ο → ρ → σ → β × σ) (e : AtomicEvent ι ρ ο β) (t : Atomic ι ρ σ ο β) :
    Option (Atomic ι ρ σ ο β) :=
  match e with
  | .visible (.call i op) =>
      match t.thread i with
      | .idle => some (t.put i (.called op))
      | _ => none
  | .visible (.ret i result) =>
      match t.thread i with
      | .done b => if b = result then some (t.put i .idle) else none
      | _ => none
  | .visible (.store value) => some { t with atomic := value }
  | .commit i =>
      match t.thread i with
      | .called op =>
          let (b, guarded) := apply op t.atomic t.guarded
          some { t.put i (.done b) with guarded }
      | _ => none

/-! ### A call that holds the mutex -/

/-- Thread by thread, outside the mutex. -/
inductive Outside : Thread ρ σ ο β → AtomicThread ο β → Prop
  | idle : Outside .idle .idle
  | called (op : ο) : Outside (.called op) (.called op)
  | unlocked (b : β) : Outside (.unlocked b) (.done b)

/-- What is left of the body of the call that holds the mutex. Before the load it still computes the whole
call, whatever will be loaded; after it the call has been made, and its effect is what is left to do. -/
inductive Inside (apply : ο → ρ → σ → β × σ) (s t : σ) : Code ρ σ β → AtomicThread ο β → Prop
  | pending {c : Code ρ σ β} (op : ο) : c.LoadsOnce → (∀ r, c.exec r s = apply op r t) →
      Inside apply s t c (.called op)
  | committed {c : Code ρ σ β} (b : β) : c.LoadFree → (∀ r, c.exec r s = (b, t)) → Inside apply s t c (.done b)

structure Simulates (apply : ο → ρ → σ → β × σ) (s : State ι ρ σ ο β) (t : Atomic ι ρ σ ο β) : Prop where
  atomic : t.atomic = s.atomic
  outside : ∀ i, s.holder ≠ some i → Outside (s.thread i) (t.thread i)
  free : s.holder = none → t.guarded = s.guarded
  inside : ∀ i, s.holder = some i → ∃ c, s.thread i = .inside c ∧ Inside apply s.guarded t.guarded c (t.thread i)

variable {body : ο → Code ρ σ β} {apply : ο → ρ → σ → β × σ} {s s' : State ι ρ σ ο β} {t : Atomic ι ρ σ ο β}
  {i j : ι}

@[simp] theorem State.put_thread_self (th : Thread ρ σ ο β) : (s.put i th).thread i = th :=
  Function.update_self ..

theorem State.put_thread_of_ne (hji : j ≠ i) (th : Thread ρ σ ο β) : (s.put i th).thread j = s.thread j :=
  Function.update_of_ne hji ..

@[simp] theorem Atomic.put_thread_self (th : AtomicThread ο β) : (t.put i th).thread i = th :=
  Function.update_self ..

theorem Atomic.put_thread_of_ne (hji : j ≠ i) (th : AtomicThread ο β) : (t.put i th).thread j = t.thread j :=
  Function.update_of_ne hji ..

omit [DecidableEq ι] in
theorem Simulates.not_holder (h : Simulates apply s t) (houtside : ∀ c, s.thread i ≠ .inside c) :
    s.holder ≠ some i := by
  intro hholder
  obtain ⟨c, hc, _⟩ := h.inside i hholder
  exact houtside c hc

omit [DecidableEq ι] in
theorem Simulates.holder (h : Simulates apply s t) {c : Code ρ σ β} (hc : s.thread i = .inside c) :
    s.holder = some i := by
  by_contra hholder
  have houtside := h.outside i hholder
  rw [hc] at houtside
  cases houtside

/-- A thread outside the mutex moves on, on both sides. -/
theorem Simulates.put (h : Simulates apply s t) (hholder : s.holder ≠ some i) {th : Thread ρ σ ο β}
    {th' : AtomicThread ο β} (houtside : Outside th th') : Simulates apply (s.put i th) (t.put i th') := by
  refine ⟨h.atomic, fun j hj => ?_, h.free, fun j hj => ?_⟩
  · by_cases hji : j = i
    · rw [hji, State.put_thread_self, Atomic.put_thread_self]
      exact houtside
    · rw [State.put_thread_of_ne hji, Atomic.put_thread_of_ne hji]
      exact h.outside j hj
  · have hji : j ≠ i := fun heq => hholder (heq ▸ hj)
    rw [State.put_thread_of_ne hji, Atomic.put_thread_of_ne hji]
    exact h.inside j hj

/-- The thread that holds the mutex takes a step of its body. -/
theorem Simulates.act (h : Simulates apply s t) (hholder : s.holder = some i) {c : Code ρ σ β} {g g' : σ}
    {th : AtomicThread ο β} (hinside : Inside apply g g' c th) :
    Simulates apply { s.put i (.inside c) with guarded := g } { t.put i th with guarded := g' } := by
  refine ⟨h.atomic, fun j hj => ?_, fun hfree => ?_, fun j hj => ?_⟩
  · have hji : j ≠ i := fun heq => hj (heq ▸ hholder)
    show Outside ((s.put i _).thread j) ((t.put i _).thread j)
    rw [State.put_thread_of_ne hji, Atomic.put_thread_of_ne hji]
    exact h.outside j hj
  · exact absurd (hholder.symm.trans hfree) (by simp)
  · obtain rfl := Option.some.inj (hholder.symm.trans hj)
    exact ⟨c, State.put_thread_self _, (Atomic.put_thread_self (t := t) (i := i) th).symm ▸ hinside⟩

/-- The thread that holds the mutex gives it back. -/
theorem Simulates.unlock (h : Simulates apply s t) (hholder : s.holder = some i) (b : β) :
    Simulates apply { s.put i (.unlocked b) with holder := none } { t.put i (.done b) with guarded := s.guarded } := by
  refine ⟨h.atomic, fun j _ => ?_, fun _ => rfl, fun j hj => absurd hj (by simp)⟩
  show Outside ((s.put i _).thread j) ((t.put i _).thread j)
  by_cases hji : j = i
  · rw [hji, State.put_thread_self, Atomic.put_thread_self]
    exact .unlocked b
  · rw [State.put_thread_of_ne hji, Atomic.put_thread_of_ne hji]
    exact h.outside j fun hj => hji (Option.some.inj (hj.symm.trans hholder))

omit [DecidableEq ι] in
theorem simulates_initial (r : ρ) (g : σ) :
    Simulates (ι := ι) apply { guarded := g, atomic := r } { guarded := g, atomic := r } :=
  ⟨rfl, fun _ _ => .idle, fun _ => rfl, nofun⟩

variable [DecidableEq β]

theorem Simulates.visible (h : Simulates apply s t) {v : Visible ι ρ ο β}
    (hstep : step body (.visible v) s = some s') :
    ∃ t', Atomic.step apply (.visible v) t = some t' ∧ Simulates apply s' t' := by
  cases v with
  | call i op =>
    simp only [step] at hstep
    split at hstep <;> rename_i hidle
    · obtain rfl := Option.some.inj hstep
      have hholder := h.not_holder (i := i) fun c hc => by simp [hc] at hidle
      have houtside := h.outside i hholder
      rw [hidle] at houtside
      generalize ht : t.thread i = th at houtside
      cases houtside
      refine ⟨t.put i (.called op), ?_, h.put hholder (.called op)⟩
      simp only [Atomic.step, ht]
    · cases hstep
  | ret i b =>
    simp only [step] at hstep
    split at hstep <;> rename_i hunlocked
    · split_ifs at hstep with heq
      obtain rfl := Option.some.inj hstep
      have hholder := h.not_holder (i := i) fun c hc => by simp [hc] at hunlocked
      have houtside := h.outside i hholder
      rw [hunlocked] at houtside
      generalize ht : t.thread i = th at houtside
      cases houtside
      refine ⟨t.put i .idle, ?_, h.put hholder .idle⟩
      simp only [Atomic.step, ht, if_pos heq]
    · cases hstep
  | store value =>
    obtain rfl := Option.some.inj hstep
    exact ⟨_, rfl, rfl, h.outside, h.free, h.inside⟩

/-- What is left of the body after its next step, and whether that step made the call. -/
theorem Simulates.body_step (h : Simulates apply s t) (hstep : step body (.act i) s = some s') :
    ∃ es t', run (Atomic.step apply) es t = some t' ∧ Simulates apply s' t' ∧
      es.flatMap AtomicEvent.history = [] := by
  simp only [step] at hstep
  split at hstep <;> rename_i hcode
  · rename_i f next
    obtain rfl := Option.some.inj hstep
    have hholder := h.holder hcode
    obtain ⟨c, hc, hinside⟩ := h.inside i hholder
    obtain rfl := Thread.inside.inj (hcode.symm.trans hc)
    refine ⟨[], t, rfl, ?_, rfl⟩
    have hnext : Inside apply (f s.guarded) t.guarded (next s.guarded) (t.thread i) := by
      generalize t.thread i = th at hinside
      cases hinside with
      | pending op honce hexec => exact .pending op (honce s.guarded) hexec
      | committed b hfree hexec => exact .committed b (hfree s.guarded) hexec
    have hact := h.act hholder hnext
    rwa [Atomic.put, Function.update_eq_self] at hact
  · rename_i next
    obtain rfl := Option.some.inj hstep
    have hholder := h.holder hcode
    obtain ⟨c, hc, hinside⟩ := h.inside i hholder
    obtain rfl := Thread.inside.inj (hcode.symm.trans hc)
    generalize ht : t.thread i = th at hinside
    cases hinside with
    | pending op honce hexec =>
      -- the call is made here: nothing is loaded after this
      have hcommit : Atomic.step apply (.commit i) t = some
          { t.put i (.done (apply op t.atomic t.guarded).1) with guarded := (apply op t.atomic t.guarded).2 } := by
        simp only [Atomic.step, ht]
      refine ⟨[.commit i], _, run_cons_eq_some.2 ⟨_, hcommit, rfl⟩, h.act hholder ?_, rfl⟩
      refine .committed _ (honce s.atomic) fun r => ?_
      rw [(honce s.atomic).exec_eq r s.atomic, h.atomic]
      exact hexec s.atomic
    | committed b hfree hexec => exact hfree.elim
  · cases hstep

theorem Simulates.unlock_step (h : Simulates apply s t) (hstep : step body (.unlock i) s = some s') :
    ∃ es t', run (Atomic.step apply) es t = some t' ∧ Simulates apply s' t' ∧
      es.flatMap AtomicEvent.history = [] := by
  simp only [step] at hstep
  split at hstep <;> rename_i hcode
  · rename_i b
    obtain rfl := Option.some.inj hstep
    have hholder := h.holder hcode
    obtain ⟨c, hc, hinside⟩ := h.inside i hholder
    obtain rfl := Thread.inside.inj (hcode.symm.trans hc)
    have hunlock := h.unlock hholder b
    generalize ht : t.thread i = th at hinside
    cases hinside with
    | pending op honce hexec =>
      have happly : apply op t.atomic t.guarded = (b, s.guarded) := (hexec t.atomic).symm
      have hcommit : Atomic.step apply (.commit i) t =
          some { t.put i (.done b) with guarded := s.guarded } := by
        simp only [Atomic.step, ht, happly]
      exact ⟨[.commit i], _, run_cons_eq_some.2 ⟨_, hcommit, rfl⟩, hunlock, rfl⟩
    | committed b' hfree hexec =>
      obtain ⟨rfl, hguarded⟩ := Prod.mk.inj (hexec s.atomic)
      refine ⟨[], t, rfl, ?_, rfl⟩
      rw [Atomic.put, ← ht, Function.update_eq_self] at hunlock
      rwa [hguarded] at hunlock
  · cases hstep

theorem Simulates.lock_step (h : Simulates apply s t) (honce : ∀ op, (body op).LoadsOnce)
    (hexec : ∀ op r g, (body op).exec r g = apply op r g) (hstep : step body (.lock i) s = some s') :
    Simulates apply s' t := by
  simp only [step] at hstep
  split at hstep <;> rename_i hfree hcalled
  · rename_i op
    obtain rfl := Option.some.inj hstep
    have houtside := h.outside i (by simp [hfree])
    rw [hcalled] at houtside
    generalize ht : t.thread i = th at houtside
    cases houtside
    refine ⟨h.atomic, fun j hj => ?_, fun hnone => absurd hnone (by simp), fun j hj => ?_⟩
    · have hji : j ≠ i := fun heq => hj (congrArg some heq.symm)
      show Outside ((s.put i _).thread j) (t.thread j)
      rw [State.put_thread_of_ne hji]
      exact h.outside j (by simp [hfree])
    · obtain rfl := Option.some.inj hj
      refine ⟨body op, State.put_thread_self _, ht.symm ▸ ?_⟩
      refine .pending op (honce op) fun r => ?_
      rw [h.free hfree]
      exact hexec op r s.guarded
  · cases hstep

/-- The step lemma. -/
theorem Simulates.step (h : Simulates apply s t) (honce : ∀ op, (body op).LoadsOnce)
    (hexec : ∀ op r g, (body op).exec r g = apply op r g) {e : Event ι ρ ο β}
    (hstep : Locked.step body e s = some s') :
    ∃ es t', run (Atomic.step apply) es t = some t' ∧ Simulates apply s' t' ∧
      es.flatMap AtomicEvent.history = e.history := by
  cases e with
  | visible v =>
    obtain ⟨t', ht', hsim⟩ := h.visible hstep
    exact ⟨[.visible v], t', run_cons_eq_some.2 ⟨t', ht', rfl⟩, hsim, rfl⟩
  | lock i => exact ⟨[], t, rfl, h.lock_step honce hexec hstep, rfl⟩
  | act i => exact h.body_step hstep
  | unlock i => exact h.unlock_step hstep

/-- **Calls under a mutex are atomic.** -/
theorem run_atomic (honce : ∀ op, (body op).LoadsOnce) (hexec : ∀ op r g, (body op).exec r g = apply op r g)
    {r : ρ} {g : σ} {es : List (Event ι ρ ο β)}
    (hrun : run (Locked.step body) es { guarded := g, atomic := r } = some s) :
    ∃ es' t, run (Atomic.step apply) es' { guarded := g, atomic := r } = some t ∧ Simulates apply s t ∧
      es'.flatMap AtomicEvent.history = es.flatMap Event.history := by
  have hsim : ∀ (e : Event ι ρ ο β) (s s' : State ι ρ σ ο β) (t : Atomic ι ρ σ ο β), Simulates apply s t →
      Locked.step body e s = some s' → ∃ es t', run (Atomic.step apply) es t = some t' ∧ Simulates apply s' t' ∧
        es.flatMap AtomicEvent.history ++ [] = [] ++ e.history := fun e s s' t h hstep => by
    obtain ⟨es, t', hrun, hsim, hhistory⟩ := h.step honce hexec hstep
    exact ⟨es, t', hrun, hsim, by rw [hhistory, List.append_nil, List.nil_append]⟩
  obtain ⟨es', t, hrun', hs, hhistory⟩ := run_simulated hsim (simulates_initial r g) hrun
  exact ⟨es', t, hrun', hs, by simpa using hhistory⟩

/-! ### What every call keeps -/

/-- An invariant of the guarded state, and what it lets every call answer. -/
structure Atomic.Kept (inv : ρ → σ → Prop) (good : β → Prop) (t : Atomic ι ρ σ ο β) : Prop where
  inv : inv t.atomic t.guarded
  good : ∀ i b, t.thread i = .done b → good b

variable {inv : ρ → σ → Prop} {good : β → Prop}

omit [DecidableEq β] in
/-- A thread moves on, and nothing else changes. -/
theorem Atomic.Kept.put (h : t.Kept inv good) (i : ι) {th : AtomicThread ο β}
    (hdone : ∀ b, th = .done b → good b) : (t.put i th).Kept inv good := by
  refine ⟨h.inv, fun j b hj => ?_⟩
  by_cases hji : j = i
  · rw [hji, Atomic.put_thread_self] at hj
    exact hdone b hj
  · rw [Atomic.put_thread_of_ne hji] at hj
    exact h.good j b hj

theorem Atomic.Kept.step {t' : Atomic ι ρ σ ο β} (h : t.Kept inv good)
    (hcall : ∀ op r g, inv r g → inv r (apply op r g).2 ∧ good (apply op r g).1)
    (hstore : ∀ r r' g, inv r g → inv r' g) {e : AtomicEvent ι ρ ο β} (hstep : Atomic.step apply e t = some t') :
    t'.Kept inv good ∧ ∀ i b, .ret i b ∈ e.history → good b := by
  cases e with
  | commit i =>
    simp only [Atomic.step] at hstep
    split at hstep
    · obtain ⟨hinv, hgood⟩ := hcall _ _ _ h.inv
      have hput : (t.put i (.done _)).Kept inv good := h.put i fun b hb => AtomicThread.done.inj hb ▸ hgood
      exact Option.some.inj hstep ▸ ⟨⟨hinv, hput.good⟩, fun j b hb => absurd hb List.not_mem_nil⟩
    · cases hstep
  | visible v =>
    cases v with
    | call i op =>
      simp only [Atomic.step] at hstep
      split at hstep
      · exact Option.some.inj hstep ▸ ⟨h.put i nofun, fun j b hb => by simp [AtomicEvent.history] at hb⟩
      · cases hstep
    | ret i b =>
      simp only [Atomic.step] at hstep
      split at hstep
      · rename_i hdone
        split_ifs at hstep with heq
        refine Option.some.inj hstep ▸ ⟨h.put i nofun, fun j b' hb => ?_⟩
        obtain ⟨rfl, rfl⟩ : j = i ∧ b' = b := by simpa [AtomicEvent.history] using hb
        exact h.good j b' (heq ▸ hdone)
      · cases hstep
    | store value =>
      exact Option.some.inj hstep ▸ ⟨⟨hstore _ _ _ h.inv, h.good⟩, fun j b hb => by
        simp [AtomicEvent.history] at hb⟩

theorem Atomic.Kept.run {t' : Atomic ι ρ σ ο β} (h : t.Kept inv good)
    (hcall : ∀ op r g, inv r g → inv r (apply op r g).2 ∧ good (apply op r g).1)
    (hstore : ∀ r r' g, inv r g → inv r' g) {es : List (AtomicEvent ι ρ ο β)}
    (hrun : Runs.run (Atomic.step apply) es t = some t') :
    t'.Kept inv good ∧ ∀ i b, .ret i b ∈ es.flatMap AtomicEvent.history → good b := by
  induction es generalizing t with
  | nil => exact ⟨Option.some.inj hrun ▸ h, fun i b hb => absurd hb List.not_mem_nil⟩
  | cons e es ih =>
    obtain ⟨t₁, hstep, hrest⟩ := run_cons_eq_some.1 hrun
    obtain ⟨hkept, hgood⟩ := h.step hcall hstore hstep
    obtain ⟨hkept', hgood'⟩ := ih hkept hrest
    refine ⟨hkept', fun i b hb => ?_⟩
    rw [List.flatMap_cons] at hb
    rcases List.mem_append.1 hb with hb | hb
    · exact hgood i b hb
    · exact hgood' i b hb

/-- What every call and every store keeps holds of the guarded state whenever the mutex is free, and every call
that has returned has answered as it then may. -/
theorem kept_of_run (honce : ∀ op, (body op).LoadsOnce) (hexec : ∀ op r g, (body op).exec r g = apply op r g)
    (hcall : ∀ op r g, inv r g → inv r (apply op r g).2 ∧ good (apply op r g).1)
    (hstore : ∀ r r' g, inv r g → inv r' g) {r : ρ} {g : σ} (hinv : inv r g) {es : List (Event ι ρ ο β)}
    (hrun : run (Locked.step body) es { guarded := g, atomic := r } = some s) :
    (s.holder = none → inv s.atomic s.guarded) ∧ ∀ i b, .ret i b ∈ es.flatMap Event.history → good b := by
  obtain ⟨es', t, hrun', hsim, hhistory⟩ := run_atomic honce hexec hrun
  obtain ⟨hkept, hgood⟩ := Atomic.Kept.run ⟨hinv, nofun⟩ hcall hstore hrun'
  refine ⟨fun hfree => ?_, fun i b hb => hgood i b (hhistory ▸ hb)⟩
  rw [← hsim.atomic, ← hsim.free hfree]
  exact hkept.inv

end Locked
