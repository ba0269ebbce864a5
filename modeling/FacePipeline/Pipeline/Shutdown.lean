import FacePipeline.Lib.Runs
import Mathlib.Data.List.Basic
import Mathlib.Logic.Function.Basic

/-!
# The steps of stop and those of the loop thread

`stop` tells the loop to quit, drops its reference and clears the pointer; meanwhile the loop thread sets the
pipeline PLAYING, reads the pointer and enters `g_main_loop_run`. `g_main_loop_quit` clears the running flag of
the loop and `g_main_loop_run` sets it on entry, so a quit between the read and the entry is undone by the
entry, and nobody is left to quit that loop again: `wait` blocks forever (`Lost.blocks`). The same happens when
the pointer is read between the quit and the clearing of the pointer.

These are the only two ways. In a run without them a completed `stop` is never lost and no loop is entered
after its reference was dropped (`keepsShutdown_of_timely`); a run with one of them loses the stop that it meets
(`timely_iff_forall_keepsShutdown`).

The calls are made one after the other. A call is entered in an idle state and takes its atomic steps in order,
and so does the loop thread; a run is any interleaving of the two.
-/

namespace FacePipeline.Pipeline

open Runs

/-- What the thread that calls `start`, `stop` and `wait` does next. -/
inductive Caller where
  /-- No call is in progress. -/
  | idle
  /-- In `start`, past the exchange of `running_`: it makes the loop. -/
  | starting
  /-- In `start`: it assigns the thread. -/
  | looped
  /-- In `stop`, past the exchange of `running_`: it tests the pointer and calls `g_main_loop_quit`. -/
  | stopping
  /-- In `stop`: it calls `g_main_loop_unref`. -/
  | quitted
  /-- In `stop`: it clears the pointer. -/
  | unreffed
  /-- `std::terminate`. -/
  | terminated
  deriving DecidableEq, Repr

/-- What the thread that `loop_thread` represents does next. -/
inductive LoopThread where
  /-- The handle is not joinable. -/
  | absent
  /-- It sets the pipeline PLAYING. -/
  | starting
  /-- It reads the loop pointer. -/
  | playing
  /-- It enters `g_main_loop_run` with the pointer it read. -/
  | entering (loop : Option ℕ)
  | inside (loop : ℕ)
  /-- It sets the pipeline to NULL. -/
  | left
  | ended
  deriving DecidableEq, Repr

/-- Loops are numbered in the order in which they are made. -/
structure Shutdown where
  running : Bool := false
  loop : Option ℕ := none
  loopThread : LoopThread := .absent
  caller : Caller := .idle
  loops : ℕ := 0
  /-- The running flag of each `GMainLoop`. -/
  isRunning : ℕ → Bool := fun _ => false
  /-- Calls of `g_main_loop_unref`. -/
  unrefs : List ℕ := []
  /-- Loops that were entered after their reference had been dropped. -/
  staleEntries : List ℕ := []

inductive AtomicStep where
  /-- `start` is called, and exchanges `running_`. -/
  | start
  /-- `stop` is called, and exchanges `running_`. -/
  | stop
  /-- A call of `wait` that returns. -/
  | wait
  /-- The next step of the call in progress. -/
  | caller
  /-- The next step of the loop thread. -/
  | loopThread
  deriving DecidableEq, Repr

namespace Shutdown

def start (s : Shutdown) : Shutdown :=
  if s.running then s else { s with running := true, caller := .starting }

def stop (s : Shutdown) : Shutdown :=
  if s.running = false then s else { s with running := false, caller := .stopping }

/-- `if (loop_thread.joinable()) loop_thread.join();`, which blocks until the thread has ended. -/
def wait (s : Shutdown) : Option Shutdown :=
  match s.loopThread with
  | .absent => some s
  | .ended => some { s with loopThread := .absent }
  | _ => none

def callerStep (s : Shutdown) : Option Shutdown :=
  match s.caller with
  | .starting => some { s with loop := some s.loops, loops := s.loops + 1, caller := .looped }
  | .looped =>
      -- the assignment to a joinable handle does not return
      if s.loopThread = .absent then some { s with loopThread := .starting, caller := .idle }
      else some { s with caller := .terminated }
  | .stopping =>
      match s.loop with
      | none => some { s with caller := .idle }
      | some i => some { s with isRunning := Function.update s.isRunning i false, caller := .quitted }
  | .quitted => some { s with unrefs := s.unrefs ++ s.loop.toList, caller := .unreffed }
  | .unreffed => some { s with loop := none, caller := .idle }
  | .idle | .terminated => none

def threadStep (s : Shutdown) : Option Shutdown :=
  match s.loopThread with
  | .starting => some { s with loopThread := .playing }
  | .playing => some { s with loopThread := .entering s.loop }
  | .entering none => some { s with loopThread := .left }
  | .entering (some i) =>
      some { s with loopThread := .inside i, isRunning := Function.update s.isRunning i true
                    staleEntries := if i ∈ s.unrefs then s.staleEntries ++ [i] else s.staleEntries }
  | .inside i => if s.isRunning i = true then none else some { s with loopThread := .left }
  | .left => some { s with loopThread := .ended }
  | .absent | .ended => none

def step (e : AtomicStep) (s : Shutdown) : Option Shutdown :=
  match e with
  | .start => if s.caller = .idle then some s.start else none
  | .stop => if s.caller = .idle then some s.stop else none
  | .wait => if s.caller = .idle then s.wait else none
  | .caller => s.callerStep
  | .loopThread => if s.caller = .terminated then none else s.threadStep

/-- The thread is in the loop, or about to enter it, and only a later quit makes it leave. -/
def Held (s : Shutdown) (i : ℕ) : Prop :=
  s.loopThread = .entering (some i) ∨ s.loopThread = .inside i ∧ s.isRunning i = true

/-- A stop has completed, nobody has started since, and the thread is held. -/
def Lost (s : Shutdown) : Prop :=
  s.running = false ∧ s.caller = .idle ∧ ∃ i, s.Held i

/-- The loop thread ends by its own steps, and `wait` returns. -/
def WaitReturns (s : Shutdown) : Prop :=
  ∃ (n : ℕ) (s' : Shutdown), run step (List.replicate n .loopThread ++ [.wait]) s = some s'

/-- What holds when no shutdown is lost. -/
structure KeepsShutdown (s : Shutdown) : Prop where
  notLost : ¬s.Lost
  noStaleEntry : s.staleEntries = []
  waitReturns : s.running = false → s.caller = .idle → s.WaitReturns

/-- The loop is not told to quit between the thread's reading the pointer and its entering the loop, and the
thread does not read the pointer between the quit and the clearing of the pointer. -/
def Timely (e : AtomicStep) (s : Shutdown) : Prop :=
  ¬(e = .caller ∧ s.caller = .stopping ∧ s.loopThread = .entering s.loop) ∧
    ¬(e = .loopThread ∧ s.loopThread = .playing ∧ (s.caller = .quitted ∨ s.caller = .unreffed))

instance : DecidableRel Timely := fun _ _ => inferInstanceAs (Decidable (_ ∧ _))

/-! ### The invariant -/

/-- Which `running_` and which pointer go with each point of the calls. -/
def Pointer (s : Shutdown) : Prop :=
  match s.caller with
  | .idle => s.running = s.loop.isSome
  | .starting => s.running = true ∧ s.loop = none
  | .looped => s.running = true ∧ s.loop.isSome = true
  | .stopping | .quitted | .unreffed => s.running = false ∧ s.loop.isSome = true
  | .terminated => True

variable {s s' : Shutdown}

theorem Pointer.idle (h : s.Pointer) (hidle : s.caller = .idle) : s.running = s.loop.isSome := by
  simpa only [Pointer, hidle] using h

theorem Pointer.loop_eq_none (h : s.Pointer) (hidle : s.caller = .idle) (hrunning : s.running = false) :
    s.loop = none := by
  have hsome := h.idle hidle
  rw [hrunning] at hsome
  exact Option.not_isSome_iff_eq_none.1 (by rw [← hsome]; decide)

theorem Pointer.start (h : s.Pointer) (hidle : s.caller = .idle) : s.start.Pointer := by
  rw [Shutdown.start]
  split_ifs with hrunning
  · exact h
  · exact ⟨rfl, h.loop_eq_none hidle (Bool.not_eq_true _ ▸ hrunning)⟩

theorem Pointer.stop (h : s.Pointer) (hidle : s.caller = .idle) : s.stop.Pointer := by
  rw [Shutdown.stop]
  split_ifs with hrunning
  · exact h
  · exact ⟨rfl, (h.idle hidle).symm.trans (Bool.not_eq_false _ ▸ hrunning)⟩

theorem Pointer.callerStep (h : s.Pointer) (hstep : s.callerStep = some s') : s'.Pointer := by
  rw [Shutdown.callerStep] at hstep
  split at hstep <;> rename_i hcaller <;> simp only [Pointer, hcaller] at h
  · exact Option.some.inj hstep ▸ ⟨h.1, rfl⟩
  · split_ifs at hstep
    · exact Option.some.inj hstep ▸ h.1.trans h.2.symm
    · exact Option.some.inj hstep ▸ trivial
  · split at hstep <;> rename_i hloop
    · exact absurd h.2 (by rw [hloop]; decide)
    · exact Option.some.inj hstep ▸ h
  · exact Option.some.inj hstep ▸ h
  · exact Option.some.inj hstep ▸ h.1
  · cases hstep
  · cases hstep

/-- The loop thread changes neither. -/
theorem threadStep_frame (hstep : s.threadStep = some s') :
    s'.caller = s.caller ∧ s'.running = s.running ∧ s'.loop = s.loop := by
  rw [threadStep] at hstep
  split at hstep
  · exact Option.some.inj hstep ▸ ⟨rfl, rfl, rfl⟩
  · exact Option.some.inj hstep ▸ ⟨rfl, rfl, rfl⟩
  · exact Option.some.inj hstep ▸ ⟨rfl, rfl, rfl⟩
  · exact Option.some.inj hstep ▸ ⟨rfl, rfl, rfl⟩
  · split_ifs at hstep
    exact Option.some.inj hstep ▸ ⟨rfl, rfl, rfl⟩
  · exact Option.some.inj hstep ▸ ⟨rfl, rfl, rfl⟩
  · cases hstep
  · cases hstep

structure Inv (s : Shutdown) : Prop where
  pointer : s.Pointer
  /-- The thread is held by the current loop only, and by that only until it is told to quit. -/
  held : ∀ i, s.Held i → s.loop = some i ∧ s.caller ≠ .quitted ∧ s.caller ≠ .unreffed
  loop : ∀ i, s.loop = some i → i < s.loops
  unrefs : ∀ i ∈ s.unrefs, i < s.loops
  /-- The pointer to a loop without a reference is cleared next. -/
  dropped : s.caller ≠ .unreffed → ∀ i ∈ s.unrefs, s.loop ≠ some i
  noStaleEntry : s.staleEntries = []

/-- Only a thread that has read a pointer is held. -/
theorem not_held {i : ℕ} (hentering : s.loopThread ≠ .entering (some i)) (hinside : s.loopThread ≠ .inside i) :
    ¬s.Held i := by
  intro hheld
  rcases hheld with h | ⟨h, _⟩
  · exact hentering h
  · exact hinside h

theorem inv_initial : Inv {} :=
  ⟨rfl, fun _ hi => absurd hi (not_held nofun nofun), nofun, fun _ hi => absurd hi List.not_mem_nil,
    fun _ _ hi => absurd hi List.not_mem_nil, rfl⟩

theorem start_inv (h : Inv s) (hidle : s.caller = .idle) : Inv s.start := by
  have hpointer := h.pointer.start hidle
  rw [start] at hpointer ⊢
  split_ifs at hpointer ⊢ with hrunning
  · exact h
  · have hloop : s.loop = none := hpointer.2
    refine ⟨hpointer, fun i hi => ⟨(h.held i hi).1, nofun, nofun⟩, h.loop, h.unrefs, fun _ i _ => ?_,
      h.noStaleEntry⟩
    show s.loop ≠ some i
    rw [hloop]
    nofun

theorem stop_inv (h : Inv s) (hidle : s.caller = .idle) : Inv s.stop := by
  have hpointer := h.pointer.stop hidle
  rw [stop] at hpointer ⊢
  split_ifs at hpointer ⊢ with hrunning
  · exact h
  · refine ⟨hpointer, fun i hi => ⟨(h.held i hi).1, nofun, nofun⟩, h.loop, h.unrefs, fun _ => ?_,
      h.noStaleEntry⟩
    exact h.dropped (by rw [hidle]; decide)

/-- A thread that has ended holds no loop. -/
theorem wait_inv (h : Inv s) (hwait : s.wait = some s') : Inv s' := by
  rw [wait] at hwait
  split at hwait
  · exact Option.some.inj hwait ▸ h
  · obtain rfl := Option.some.inj hwait
    exact ⟨h.pointer, fun i hi => absurd hi (not_held nofun nofun), h.loop, h.unrefs, h.dropped, h.noStaleEntry⟩
  · cases hwait

/-- The quit frees a thread that is inside the loop, and no other thread than one about to enter it is held. -/
theorem not_held_of_quit {i j : ℕ} (h : Inv s) (hloop : s.loop = some i)
    (htimely : s.loopThread ≠ .entering s.loop) :
    ¬Held { s with isRunning := Function.update s.isRunning i false, caller := .quitted } j := by
  intro hj
  rcases hj with hj | ⟨hj, hrunning⟩
  · have heq := (h.held j (.inl hj)).1
    exact htimely (hj.trans (congrArg _ heq.symm))
  · have hrunning : Function.update s.isRunning i false j = true := hrunning
    by_cases hji : j = i
    · rw [hji, Function.update_self] at hrunning
      cases hrunning
    · rw [Function.update_of_ne hji] at hrunning
      have heq := (h.held j (.inr ⟨hj, hrunning⟩)).1
      exact hji (Option.some.inj (heq.symm.trans hloop))

theorem callerStep_inv (h : Inv s)
    (htimely : ¬(s.caller = .stopping ∧ s.loopThread = .entering s.loop))
    (hstep : s.callerStep = some s') : Inv s' := by
  have hpointer := h.pointer
  have hpointer' := h.pointer.callerStep hstep
  rw [callerStep] at hstep
  split at hstep <;> rename_i hcaller
  · -- the new loop is nobody's yet
    simp only [Pointer, hcaller] at hpointer
    obtain rfl := Option.some.inj hstep
    refine ⟨hpointer', fun i hi => ?_, fun i hi => ?_, fun i hi => ?_, fun _ i hi heq => ?_,
      h.noStaleEntry⟩
    · exact absurd (hpointer.2.symm.trans (h.held i hi).1) nofun
    · obtain rfl := Option.some.inj hi
      exact Nat.lt_succ_self _
    · exact Nat.lt_succ_of_lt (h.unrefs i hi)
    · obtain rfl := Option.some.inj heq
      exact absurd (h.unrefs _ hi) (Nat.lt_irrefl _)
  · have hdropped := h.dropped (by rw [hcaller]; decide)
    split_ifs at hstep with habsent
    · obtain rfl := Option.some.inj hstep
      exact ⟨hpointer', fun i hi => absurd hi (not_held nofun nofun), h.loop, h.unrefs, fun _ => hdropped,
        h.noStaleEntry⟩
    · obtain rfl := Option.some.inj hstep
      exact ⟨hpointer', fun i hi => ⟨(h.held i hi).1, nofun, nofun⟩, h.loop, h.unrefs, fun _ => hdropped,
        h.noStaleEntry⟩
  · split at hstep <;> rename_i hloop
    · simp only [Pointer, hcaller] at hpointer
      exact absurd hpointer.2 (by rw [hloop]; decide)
    · obtain rfl := Option.some.inj hstep
      refine ⟨hpointer', fun j hj => absurd hj ?_, h.loop, h.unrefs, fun _ => ?_, h.noStaleEntry⟩
      · exact not_held_of_quit h hloop fun hb => htimely ⟨hcaller, hb⟩
      · exact h.dropped (by rw [hcaller]; decide)
  · obtain rfl := Option.some.inj hstep
    refine ⟨hpointer', fun i hi => absurd hcaller (h.held i hi).2.1, h.loop, fun i hi => ?_,
      fun hne => absurd rfl hne, h.noStaleEntry⟩
    rcases List.mem_append.1 hi with hi | hi
    · exact h.unrefs i hi
    · exact h.loop i (Option.mem_toList.1 hi)
  · obtain rfl := Option.some.inj hstep
    exact ⟨hpointer', fun i hi => absurd hcaller (h.held i hi).2.2, nofun, h.unrefs, fun _ _ _ => nofun,
      h.noStaleEntry⟩
  · cases hstep
  · cases hstep

/-- A thread that reads the pointer is held by what it read. -/
theorem threadStep_inv (h : Inv s)
    (htimely : ¬(s.loopThread = .playing ∧ (s.caller = .quitted ∨ s.caller = .unreffed)))
    (hstep : s.threadStep = some s') : Inv s' := by
  -- a thread at any other point of its function holds no loop
  have hfree : ∀ t : LoopThread, (∀ i, t ≠ .entering (some i)) → (∀ i, t ≠ .inside i) →
      Inv { s with loopThread := t } := fun t hentering hinside =>
    ⟨h.pointer, fun i hi => absurd hi (not_held (hentering i) (hinside i)), h.loop, h.unrefs, h.dropped,
      h.noStaleEntry⟩
  rw [threadStep] at hstep
  split at hstep <;> rename_i hthread
  · exact Option.some.inj hstep ▸ hfree .playing nofun nofun
  · obtain rfl := Option.some.inj hstep
    refine ⟨h.pointer, fun i hi => ?_, h.loop, h.unrefs, h.dropped, h.noStaleEntry⟩
    rcases hi with hi | ⟨hi, _⟩
    · refine ⟨LoopThread.entering.inj hi, fun hc => ?_, fun hc => ?_⟩
      · exact htimely ⟨hthread, .inl hc⟩
      · exact htimely ⟨hthread, .inr hc⟩
    · cases hi
  · exact Option.some.inj hstep ▸ hfree .left nofun nofun
  · rename_i i
    obtain rfl := Option.some.inj hstep
    have hheld := h.held i (.inl hthread)
    refine ⟨h.pointer, fun j hj => ?_, h.loop, h.unrefs, h.dropped, ?_⟩
    · rcases hj with hj | ⟨hj, _⟩
      · cases hj
      · obtain rfl := LoopThread.inside.inj hj
        exact hheld
    · have hfresh : i ∉ s.unrefs := fun hmem => h.dropped hheld.2.2 i hmem hheld.1
      exact (if_neg hfresh).trans h.noStaleEntry
  · split_ifs at hstep
    exact Option.some.inj hstep ▸ hfree .left nofun nofun
  · exact Option.some.inj hstep ▸ hfree .ended nofun nofun
  · cases hstep
  · cases hstep

/-- The step lemma. -/
theorem step_inv {e : AtomicStep} (h : Inv s) (htimely : Timely e s) (hstep : step e s = some s') :
    Inv s' := by
  cases e with
  | start =>
    rw [step] at hstep
    split_ifs at hstep with hidle
    exact Option.some.inj hstep ▸ start_inv h hidle
  | stop =>
    rw [step] at hstep
    split_ifs at hstep with hidle
    exact Option.some.inj hstep ▸ stop_inv h hidle
  | wait =>
    rw [step] at hstep
    split_ifs at hstep
    exact wait_inv h hstep
  | caller => exact callerStep_inv h (fun hb => htimely.1 ⟨rfl, hb⟩) hstep
  | loopThread =>
    rw [step] at hstep
    split_ifs at hstep
    exact threadStep_inv h (fun hb => htimely.2 ⟨rfl, hb⟩) hstep

/-! ### A stop that is kept -/

/-- How many steps the thread has left when no loop holds it. -/
def LoopThread.remaining : LoopThread → ℕ
  | .starting => 5
  | .playing => 4
  | .entering _ => 3
  | .inside _ => 2
  | .left => 1
  | .absent | .ended => 0

/-- After a completed stop that has reached the thread. -/
structure Stopped (s : Shutdown) : Prop where
  idle : s.caller = .idle
  loop : s.loop = none
  free : ∀ i, ¬s.Held i

theorem Stopped.step (h : Stopped s) : (∃ s', Shutdown.step .wait s = some s') ∨
    ∃ s', Shutdown.step .loopThread s = some s' ∧ Stopped s' ∧
      LoopThread.remaining s'.loopThread < LoopThread.remaining s.loopThread := by
  have hwait : Shutdown.step .wait s = s.wait := if_pos h.idle
  have hthread : Shutdown.step .loopThread s = s.threadStep := if_neg (by rw [h.idle]; decide)
  have hfree : ∀ t : LoopThread, (∀ i, t ≠ .entering (some i)) → (∀ i, t ≠ .inside i) →
      Stopped { s with loopThread := t } := fun t hentering hinside =>
    ⟨h.idle, h.loop, fun i => not_held (hentering i) (hinside i)⟩
  rw [hwait, hthread, Shutdown.wait, threadStep]
  cases hs : s.loopThread with
  | absent => exact .inl ⟨_, rfl⟩
  | starting => exact .inr ⟨_, rfl, hfree .playing nofun nofun, Nat.lt_succ_self 4⟩
  | playing =>
    refine .inr ⟨_, rfl, hfree _ (fun i hi => ?_) nofun, Nat.lt_succ_self 3⟩
    exact absurd (h.loop.symm.trans (LoopThread.entering.inj hi)) nofun
  | entering loop =>
    cases loop with
    | none => exact .inr ⟨_, rfl, hfree .left nofun nofun, show 1 < 3 by decide⟩
    | some i => exact absurd (.inl hs) (h.free i)
  | inside i =>
    have hquit : ¬s.isRunning i = true := fun hrunning => h.free i (.inr ⟨hs, hrunning⟩)
    exact .inr ⟨_, if_neg hquit, hfree .left nofun nofun, Nat.lt_succ_self 1⟩
  | left => exact .inr ⟨_, rfl, hfree .ended nofun nofun, Nat.lt_succ_self 0⟩
  | ended => exact .inl ⟨_, rfl⟩

theorem Stopped.waitReturns (h : Stopped s) : s.WaitReturns := by
  induction hn : LoopThread.remaining s.loopThread using Nat.strongRecOn generalizing s with
  | _ n ih =>
    rcases h.step with ⟨s', hs'⟩ | ⟨s₁, hs₁, hstopped, hlt⟩
    · exact ⟨0, s', run_cons_eq_some.2 ⟨s', hs', rfl⟩⟩
    · obtain ⟨m, s', hrun⟩ := ih _ (hn ▸ hlt) hstopped rfl
      exact ⟨m + 1, s', run_cons_eq_some.2 ⟨s₁, hs₁, hrun⟩⟩

theorem Inv.keepsShutdown (h : Inv s) : s.KeepsShutdown := by
  have hfree : s.running = false → s.caller = .idle → ∀ i, ¬s.Held i := fun hrunning hidle i hi =>
    absurd ((h.pointer.loop_eq_none hidle hrunning).symm.trans (h.held i hi).1) nofun
  refine ⟨fun ⟨hrunning, hidle, i, hi⟩ => hfree hrunning hidle i hi, h.noStaleEntry, fun hrunning hidle => ?_⟩
  exact Stopped.waitReturns ⟨hidle, h.pointer.loop_eq_none hidle hrunning, hfree hrunning hidle⟩

/-- **In a run whose steps are timely no shutdown is lost.** -/
theorem keepsShutdown_of_timely (es : List AtomicStep) (s : Shutdown) (htimely : Along step Timely es {})
    (hrun : run step es {} = some s) : KeepsShutdown s :=
  (inv_of_along (fun _ _ _ => step_inv) inv_initial htimely hrun).keepsShutdown

/-- The thread enters the loop before it is told to quit. -/
theorem keepsShutdown_of_timely_oneRound : ∃ s, run step [.start, .caller, .caller, .loopThread, .loopThread,
    .stop, .loopThread, .caller, .caller, .caller] {} = some s ∧ KeepsShutdown s :=
  ⟨_, rfl, keepsShutdown_of_timely [.start, .caller, .caller, .loopThread, .loopThread, .stop, .loopThread,
    .caller, .caller, .caller] _ (by decide) rfl⟩

/-! ### A stop that is lost -/

/-- A held thread stays held until its loop is told to quit. -/
theorem Held.threadStep {i : ℕ} (h : s.Held i) (hstep : s.threadStep = some s') :
    s'.Held i := by
  rw [Shutdown.threadStep] at hstep
  rcases h with h | ⟨h, hrunning⟩
  · rw [h] at hstep
    obtain rfl := Option.some.inj hstep
    exact .inr ⟨rfl, Function.update_self i true s.isRunning⟩
  · rw [h] at hstep
    exact absurd (hstep.symm.trans (if_pos hrunning)) nofun

theorem Held.wait {i : ℕ} (h : s.Held i) : s.wait = none := by
  rcases h with h | ⟨h, _⟩ <;> rw [Shutdown.wait, h]

theorem Lost.step {e : AtomicStep} (h : s.Lost) (hne : e ≠ .start) (hstep : Shutdown.step e s = some s') :
    s'.Lost := by
  obtain ⟨hrunning, hidle, i, hi⟩ := h
  cases e with
  | start => exact absurd rfl hne
  | stop =>
    rw [Shutdown.step, if_pos hidle, Shutdown.stop, if_pos hrunning] at hstep
    exact Option.some.inj hstep ▸ ⟨hrunning, hidle, i, hi⟩
  | wait =>
    rw [Shutdown.step, if_pos hidle, hi.wait] at hstep
    cases hstep
  | caller =>
    rw [Shutdown.step, callerStep, hidle] at hstep
    cases hstep
  | loopThread =>
    rw [Shutdown.step, if_neg (by rw [hidle]; decide)] at hstep
    obtain ⟨hcaller', hrunning', _⟩ := threadStep_frame hstep
    exact ⟨hrunning'.trans hrunning, hcaller'.trans hidle, i, hi.threadStep hstep⟩

/-- Unless the pipeline is started again, `wait` does not return. -/
theorem Lost.blocks {es : List AtomicStep} (h : s.Lost) (hstart : .start ∉ es)
    (hrun : run Shutdown.step es s = some s') : s'.Lost ∧ Shutdown.step .wait s' = none := by
  have hcalls : Along Shutdown.step (fun e _ => e ≠ .start) es s :=
    along_of_forall fun e he _ heq => hstart (heq ▸ he)
  have hlost := inv_of_along (fun _ _ _ => Lost.step) h hcalls hrun
  have ⟨_, hidle, i, hi⟩ := hlost
  exact ⟨hlost, (if_pos hidle).trans hi.wait⟩

/-- The quit of the stop in progress has come too early for the thread. -/
def Missed (s : Shutdown) : Prop :=
  s.running = false ∧ (s.caller = .quitted ∨ s.caller = .unreffed) ∧ ∃ i, s.Held i

theorem missed_of_untimely {e : AtomicStep} (h : Inv s) (hnot : ¬Timely e s) (hstep : step e s = some s') :
    s'.Missed := by
  have hpointer := h.pointer
  rw [Timely, not_and_or, not_not, not_not] at hnot
  rcases hnot with ⟨rfl, hcaller, hthread⟩ | ⟨rfl, hthread, hcaller⟩
  · simp only [Pointer, hcaller] at hpointer
    obtain ⟨hrunning, hsome⟩ := hpointer
    obtain ⟨i, hloop⟩ := Option.isSome_iff_exists.1 hsome
    simp only [step, callerStep, hcaller, hloop] at hstep
    obtain rfl := Option.some.inj hstep
    exact ⟨hrunning, .inl rfl, i, .inl (hthread.trans (congrArg _ hloop))⟩
  · have hstopping : s.running = false ∧ s.loop.isSome = true := by
      rcases hcaller with hc | hc <;> simpa only [Pointer, hc] using hpointer
    obtain ⟨i, hloop⟩ := Option.isSome_iff_exists.1 hstopping.2
    have halive : s.caller ≠ .terminated := by rcases hcaller with hc | hc <;> rw [hc] <;> decide
    rw [step, if_neg halive, threadStep, hthread] at hstep
    obtain rfl := Option.some.inj hstep
    exact ⟨hstopping.1, hcaller, i, .inl (congrArg _ hloop)⟩

/-- Nothing but the steps of the two threads can happen before the stop completes. -/
theorem Missed.step {e : AtomicStep} (h : s.Missed) (hstep : Shutdown.step e s = some s') :
    s'.Missed ∨ s'.Lost := by
  obtain ⟨hrunning, hcaller, i, hi⟩ := h
  have hbusy : s.caller ≠ .idle := by rcases hcaller with hc | hc <;> rw [hc] <;> decide
  have halive : s.caller ≠ .terminated := by rcases hcaller with hc | hc <;> rw [hc] <;> decide
  cases e with
  | start => exact absurd (hstep.symm.trans (if_neg hbusy)) nofun
  | stop => exact absurd (hstep.symm.trans (if_neg hbusy)) nofun
  | wait => exact absurd (hstep.symm.trans (if_neg hbusy)) nofun
  | caller =>
    rcases hcaller with hc | hc
    · simp only [Shutdown.step, callerStep, hc] at hstep
      exact .inl (Option.some.inj hstep ▸ ⟨hrunning, .inr rfl, i, hi⟩)
    · simp only [Shutdown.step, callerStep, hc] at hstep
      exact .inr (Option.some.inj hstep ▸ ⟨hrunning, rfl, i, hi⟩)
  | loopThread =>
    rw [Shutdown.step, if_neg halive] at hstep
    obtain ⟨hcaller', hrunning', _⟩ := threadStep_frame hstep
    exact .inl ⟨hrunning'.trans hrunning, hcaller'.symm ▸ hcaller, i, hi.threadStep hstep⟩

/-- When the stop completes it is lost. -/
theorem Missed.lost {es : List AtomicStep} (h : s.Missed) (hrun : run Shutdown.step es s = some s')
    (hidle : s'.caller = .idle) :
    ∃ es₁ es₂ s₁, es = es₁ ++ es₂ ∧ run Shutdown.step es₁ s = some s₁ ∧ s₁.Lost := by
  induction es generalizing s with
  | nil =>
    obtain rfl := Option.some.inj hrun
    obtain ⟨_, hcaller, _⟩ := h
    rcases hcaller with hc | hc <;> exact absurd (hc.symm.trans hidle) nofun
  | cons e es ih =>
    obtain ⟨s₁, hs₁, hrest⟩ := run_cons_eq_some.1 hrun
    rcases h.step hs₁ with hmissed | hlost
    · obtain ⟨es₁, es₂, s₂, rfl, hrun₂, hlost⟩ := ih hmissed hrest
      exact ⟨e :: es₁, es₂, s₂, rfl, run_cons_eq_some.2 ⟨s₁, hs₁, hrun₂⟩, hlost⟩
    · exact ⟨[e], es, s₁, rfl, run_cons_eq_some.2 ⟨s₁, hs₁, rfl⟩, hlost⟩

/-- A run with its calls completed keeps every shutdown on its way exactly when its steps are timely. -/
theorem timely_iff_forall_keepsShutdown {es : List AtomicStep} (hrun : run step es {} = some s)
    (hidle : s.caller = .idle) : Along step Timely es {} ↔
      ∀ es₁ s₁, es₁ <+: es → run step es₁ {} = some s₁ → s₁.KeepsShutdown := by
  constructor
  · intro htimely es₁ s₁ ⟨es₂, heq⟩ hrun₁
    have htimely₁ : Along step Timely es₁ {} := Along.append_left (heq ▸ htimely)
    exact (inv_of_along (fun _ _ _ => step_inv) inv_initial htimely₁ hrun₁).keepsShutdown
  · intro hkeeps
    by_contra hnot
    obtain ⟨es₁, e, es₂, s₁, s₂, rfl, hrun₁, hinv, huntimely, hs₂, hrest⟩ :=
      exists_first_of_not_along (fun _ _ _ => step_inv) inv_initial hnot hrun
    obtain ⟨es₃, es₄, s₃, rfl, hrun₃, hlost⟩ := (missed_of_untimely hinv huntimely hs₂).lost hrest hidle
    refine (hkeeps (es₁ ++ e :: es₃) s₃ ⟨es₄, by simp⟩ ?_).notLost hlost
    exact run_append_eq_some.2 ⟨s₁, hrun₁, run_cons_eq_some.2 ⟨s₂, hs₂, hrun₃⟩⟩

/-- The loop is told to quit after the thread has read the pointer. When the thread enters before `stop` drops
the reference, `wait` never returns; when it enters after that, it enters a loop without a reference. -/
theorem not_keepsShutdown_earlyQuit :
    (∃ s, run step [.start, .caller, .caller, .loopThread, .loopThread, .stop, .caller, .loopThread, .caller,
        .caller] {} = some s ∧ ¬KeepsShutdown s ∧ s.loopThread = .inside 0 ∧
      ∀ es s', .start ∉ es → run step es s = some s' → step .wait s' = none) ∧
    ∃ s, run step [.start, .caller, .caller, .loopThread, .loopThread, .stop, .caller, .caller,
        .loopThread] {} = some s ∧ ¬KeepsShutdown s ∧ s.staleEntries = [0] := by
  refine ⟨⟨_, rfl, fun h => h.notLost ⟨rfl, rfl, 0, .inr ⟨rfl, rfl⟩⟩, rfl, fun es s' hstart hrun => ?_⟩,
    _, rfl, fun h => absurd h.noStaleEntry (by decide), rfl⟩
  exact (Lost.blocks ⟨rfl, rfl, 0, .inr ⟨rfl, rfl⟩⟩ hstart hrun).2

end Shutdown

end FacePipeline.Pipeline
