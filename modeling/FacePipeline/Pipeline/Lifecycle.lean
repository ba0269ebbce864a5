import FacePipeline.Pipeline.Shutdown

/-!
# Start, stop, wait and the destructor

`running_`, the loop pointer and the thread handle are changed by different calls: `stop` clears the first
two and leaves the handle, which only `wait` and the destructor join. A `start` after a `stop` therefore
assigns a new thread to a handle that may still be joinable, and `std::thread` answers that with
`std::terminate`. The destructor stops the pipeline and joins the thread; where its quit comes before the thread
has entered the loop, the join never returns.

The destructor is a `stop` and a `wait` at the end of a run of the steps of `Shutdown`. Nothing but these two can
go wrong: a run stays safe, and the pipeline can still be destroyed, exactly when a stopped pipeline is joined
before it is started again and every step is timely (`safe_iff`).
-/

namespace FacePipeline.Pipeline

open Runs

/-! ### Calls in their order -/

def AtomicStep.runningAfter (e : AtomicStep) (running : Bool) : Bool :=
  match e with
  | .start => true
  | .stop => false
  | .wait | .caller | .loopThread => running

def AtomicStep.joinableAfter (e : AtomicStep) (joinable : Bool) : Bool :=
  match e with
  | .start => true
  | .wait => false
  | .stop | .caller | .loopThread => joinable

/-- No call starts a stopped pipeline whose thread was not joined. -/
def JoinsBeforeRestart (running joinable : Bool) : List AtomicStep → Prop
  | [] => True
  | e :: es => ¬(e = .start ∧ running = false ∧ joinable = true) ∧
      JoinsBeforeRestart (e.runningAfter running) (e.joinableAfter joinable) es

instance decidableJoinsBeforeRestart : (running joinable : Bool) → (es : List AtomicStep) →
    Decidable (JoinsBeforeRestart running joinable es)
  | _, _, [] => inferInstanceAs (Decidable True)
  | running, joinable, e :: es =>
      have := decidableJoinsBeforeRestart (e.runningAfter running) (e.joinableAfter joinable) es
      inferInstanceAs (Decidable (_ ∧ _))

theorem JoinsBeforeRestart.append_left {running joinable : Bool} {es es' : List AtomicStep}
    (h : JoinsBeforeRestart running joinable (es ++ es')) : JoinsBeforeRestart running joinable es := by
  induction es generalizing running joinable with
  | nil => trivial
  | cons e es ih => exact ⟨h.1, ih h.2⟩

namespace Shutdown

variable {s s' : Shutdown} {e : AtomicStep}

/-- A thread was started, or is about to be, that was not joined. -/
def joinable (s : Shutdown) : Bool :=
  s.loopThread ≠ .absent ∨ s.caller = .starting ∨ s.caller = .looped

/-- The thread of a running pipeline has not left its loop. -/
def Working (s : Shutdown) : Prop :=
  ∃ i, s.loop = some i ∧ (s.loopThread = .starting ∨ s.loopThread = .playing ∨ s.Held i)

theorem Working.threadStep (h : s.Working) (hstep : s.threadStep = some s') : s'.Working := by
  obtain ⟨i, hloop, hthread⟩ := h
  obtain ⟨_, _, hloop'⟩ := threadStep_frame hstep
  refine ⟨i, hloop'.trans hloop, ?_⟩
  rcases hthread with hthread | hthread | hheld
  · rw [Shutdown.threadStep, hthread] at hstep
    exact Option.some.inj hstep ▸ .inr (.inl rfl)
  · rw [Shutdown.threadStep, hthread] at hstep
    exact Option.some.inj hstep ▸ .inr (.inr (.inl (congrArg _ hloop)))
  · exact .inr (.inr (hheld.threadStep hstep))

/-- A thread at work has neither ended nor is it missing. -/
theorem Working.thread_ne (h : s.Working) : s.loopThread ≠ .ended ∧ s.loopThread ≠ .absent := by
  obtain ⟨i, _, hthread⟩ := h
  rcases hthread with hthread | hthread | hthread | ⟨hthread, _⟩ <;> simp [hthread]

/-- The thread that exists, if the handle represents all of them. -/
def live (s : Shutdown) : ℕ :=
  match s.loopThread with
  | .absent | .ended => 0
  | .starting | .playing | .entering _ | .inside _ | .left => 1

theorem live_le (s : Shutdown) : s.live ≤ 1 := by
  rw [live]
  split <;> decide

/-- What a step of the thread does to the thread. -/
structure ThreadStep (s s' : Shutdown) : Prop where
  before : s.loopThread ≠ .absent
  after : s'.loopThread ≠ .absent
  unrefs : s'.unrefs = s.unrefs
  remaining : LoopThread.remaining s'.loopThread < LoopThread.remaining s.loopThread
  live : s'.live + (if s.loopThread = .left then 1 else 0) = s.live

theorem threadStep_thread (hstep : s.threadStep = some s') : ThreadStep s s' := by
  rw [Shutdown.threadStep] at hstep
  split at hstep <;> rename_i hs
  · obtain rfl := Option.some.inj hstep
    constructor <;> simp [hs, LoopThread.remaining, live]
  · obtain rfl := Option.some.inj hstep
    constructor <;> simp [hs, LoopThread.remaining, live]
  · obtain rfl := Option.some.inj hstep
    constructor <;> simp [hs, LoopThread.remaining, live]
  · obtain rfl := Option.some.inj hstep
    constructor <;> simp [hs, LoopThread.remaining, live]
  · split_ifs at hstep
    obtain rfl := Option.some.inj hstep
    constructor <;> simp [hs, LoopThread.remaining, live]
  · obtain rfl := Option.some.inj hstep
    constructor <;> simp [hs, LoopThread.remaining, live]
  · cases hstep
  · cases hstep

/-! ### Joined before it is started again -/

/-- What holds while every stopped pipeline is joined before it is started again, and all steps are timely. -/
structure Orderly (s : Shutdown) : Prop where
  inv : Inv s
  alive : s.caller ≠ .terminated
  /-- `start` finds no thread. -/
  fresh : s.caller = .starting ∨ s.caller = .looped → s.loopThread = .absent
  working : s.caller = .idle → s.running = true → s.Working
  unrefOnce : s.unrefs.Nodup

theorem orderly_initial : Orderly {} :=
  ⟨inv_initial, by decide, fun _ => rfl, fun _ hrunning => absurd hrunning Bool.false_ne_true, List.nodup_nil⟩

/-- A step that keeps the order of the calls, and what it does to the two flags they determine. -/
structure Keeps (e : AtomicStep) (s s' : Shutdown) : Prop where
  orderly : Orderly s'
  running : s'.running = e.runningAfter s.running
  joinable : s'.joinable = e.joinableAfter s.joinable

theorem Orderly.start (h : Orderly s) (hinv : Inv s.start) (hidle : s.caller = .idle)
    (hjoined : ¬(s.running = false ∧ s.joinable = true)) : Keeps .start s s.start := by
  rw [Shutdown.start] at hinv ⊢
  split_ifs at hinv ⊢ with hrunning
  · refine ⟨h, hrunning, ?_⟩
    rw [Shutdown.joinable, decide_eq_true_iff.2 (.inl (h.working hidle hrunning).thread_ne.2)]
    rfl
  · have habsent : s.loopThread = .absent := by
      by_contra hne
      exact hjoined ⟨Bool.not_eq_true _ ▸ hrunning, decide_eq_true_iff.2 (.inl hne)⟩
    refine ⟨⟨hinv, by simp, fun _ => habsent, by simp, h.unrefOnce⟩, rfl, ?_⟩
    simp [Shutdown.joinable, AtomicStep.joinableAfter]

theorem Orderly.stop (h : Orderly s) (hinv : Inv s.stop) (hidle : s.caller = .idle) :
    Keeps .stop s s.stop := by
  rw [Shutdown.stop] at hinv ⊢
  split_ifs at hinv ⊢ with hrunning
  · exact ⟨h, hrunning, rfl⟩
  · refine ⟨⟨hinv, by simp, by simp, by simp, h.unrefOnce⟩, rfl, ?_⟩
    simp [Shutdown.joinable, AtomicStep.joinableAfter, hidle]

theorem Orderly.wait (h : Orderly s) (hinv : Inv s') (hidle : s.caller = .idle) (hwait : s.wait = some s') :
    Keeps .wait s s' := by
  rw [Shutdown.wait] at hwait
  split at hwait <;> rename_i hs
  · obtain rfl := Option.some.inj hwait
    exact ⟨h, rfl, by simp [Shutdown.joinable, AtomicStep.joinableAfter, hs, hidle]⟩
  · have hstopped : ¬s.running = true := fun hrunning => (h.working hidle hrunning).thread_ne.1 hs
    obtain rfl := Option.some.inj hwait
    refine ⟨⟨hinv, h.alive, fun _ => rfl, fun _ hrunning => absurd hrunning hstopped, h.unrefOnce⟩, rfl, ?_⟩
    simp [Shutdown.joinable, AtomicStep.joinableAfter, hidle]
  · cases hwait

/-- A step inside a call that leaves the thread and `running_` as they are. -/
theorem Orderly.inside (h : Orderly s) (hinv : Inv s') (hthread : s'.loopThread = s.loopThread)
    (hrunning : s'.running = s.running) (halive : s'.caller ≠ .terminated)
    (hcaller : s'.caller = .starting ∨ s'.caller = .looped ↔ s.caller = .starting ∨ s.caller = .looped)
    (hidle : s'.caller = .idle → s'.running = false) (hunrefs : s'.unrefs.Nodup) : Keeps .caller s s' := by
  refine ⟨⟨hinv, halive, fun hstarting => ?_, fun hc hr => ?_, hunrefs⟩, hrunning, ?_⟩
  · exact hthread.trans (h.fresh (hcaller.1 hstarting))
  · exact absurd ((hidle hc).symm.trans hr) Bool.false_ne_true
  · rw [Shutdown.joinable, hthread, decide_eq_decide.2 (or_congr_right hcaller)]
    rfl

theorem Orderly.callerStep (h : Orderly s) (hinv : Inv s') (hstep : s.callerStep = some s') :
    Keeps .caller s s' := by
  have hpointer := h.inv.pointer
  rw [Shutdown.callerStep] at hstep
  split at hstep <;> rename_i hcaller <;> simp only [Pointer, hcaller] at hpointer
  · obtain rfl := Option.some.inj hstep
    exact h.inside hinv rfl rfl (by simp) (by simp [hcaller]) (by simp) h.unrefOnce
  · obtain ⟨i, hloop⟩ := Option.isSome_iff_exists.1 hpointer.2
    rw [if_pos (h.fresh (.inr hcaller))] at hstep
    obtain rfl := Option.some.inj hstep
    refine ⟨⟨hinv, by simp, by simp, fun _ _ => ⟨i, hloop, .inl rfl⟩, h.unrefOnce⟩, rfl, ?_⟩
    simp [Shutdown.joinable, AtomicStep.joinableAfter, hcaller]
  · split at hstep
    · obtain rfl := Option.some.inj hstep
      exact h.inside hinv rfl rfl (by simp) (by simp [hcaller]) (fun _ => hpointer.1) h.unrefOnce
    · obtain rfl := Option.some.inj hstep
      exact h.inside hinv rfl rfl (by simp) (by simp [hcaller]) (by simp) h.unrefOnce
  · -- the pointer is not yet among the loops without a reference
    obtain ⟨i, hloop⟩ := Option.isSome_iff_exists.1 hpointer.2
    have hfresh : i ∉ s.unrefs := fun hi => h.inv.dropped (by simp [hcaller]) i hi hloop
    obtain rfl := Option.some.inj hstep
    refine h.inside hinv rfl rfl (by simp) (by simp [hcaller]) (by simp) ?_
    show (s.unrefs ++ s.loop.toList).Nodup
    rw [hloop]
    refine List.nodup_append.2 ⟨h.unrefOnce, by simp, fun j hj k hk heq => hfresh ?_⟩
    rw [← List.mem_singleton.1 hk, ← heq]
    exact hj
  · obtain rfl := Option.some.inj hstep
    exact h.inside hinv rfl rfl (by simp) (by simp [hcaller]) (fun _ => hpointer.1) h.unrefOnce
  · cases hstep
  · cases hstep

theorem Orderly.threadStep (h : Orderly s) (hinv : Inv s') (hstep : s.threadStep = some s') :
    Keeps .loopThread s s' := by
  obtain ⟨hcaller, hrunning, _⟩ := threadStep_frame hstep
  have hthread := threadStep_thread hstep
  refine ⟨⟨hinv, hcaller ▸ h.alive, fun hstarting => ?_, fun hidle hr => ?_, hthread.unrefs ▸ h.unrefOnce⟩,
    hrunning, ?_⟩
  · exact absurd (h.fresh (hcaller ▸ hstarting)) hthread.before
  · exact (h.working (hcaller ▸ hidle) (hrunning ▸ hr)).threadStep hstep
  · rw [Shutdown.joinable, decide_eq_true_iff.2 (.inl hthread.after), Shutdown.joinable,
      decide_eq_true_iff.2 (.inl hthread.before)]
    rfl

/-- The step lemma. -/
theorem Orderly.step (h : Orderly s) (htimely : Timely e s)
    (hjoined : ¬(e = .start ∧ s.running = false ∧ s.joinable = true)) (hstep : Shutdown.step e s = some s') :
    Keeps e s s' := by
  have hinv := step_inv h.inv htimely hstep
  cases e with
  | start =>
    rw [Shutdown.step] at hstep
    split_ifs at hstep with hidle
    obtain rfl := Option.some.inj hstep
    exact h.start hinv hidle fun hb => hjoined ⟨rfl, hb⟩
  | stop =>
    rw [Shutdown.step] at hstep
    split_ifs at hstep with hidle
    obtain rfl := Option.some.inj hstep
    exact h.stop hinv hidle
  | wait =>
    rw [Shutdown.step] at hstep
    split_ifs at hstep with hidle
    exact h.wait hinv hidle hstep
  | caller => exact h.callerStep hinv hstep
  | loopThread =>
    rw [Shutdown.step] at hstep
    split_ifs at hstep
    exact h.threadStep hinv hstep

/-! ### What cannot be made good -/

/-- A stop is being lost or was, or a thread is started over one that was not joined. -/
inductive Doomed (s : Shutdown) : Prop
  | missed (h : s.Missed)
  | lost (h : s.Lost)
  | restarting (hcaller : s.caller = .starting ∨ s.caller = .looped) (hthread : s.loopThread ≠ .absent)
  | terminated (h : s.caller = .terminated)

theorem doomed_of_untimely (h : Inv s) (hnot : ¬Timely e s) (hstep : Shutdown.step e s = some s') : Doomed s' :=
  .missed (missed_of_untimely h hnot hstep)

theorem doomed_of_restart (hrunning : s.running = false) (hjoinable : s.joinable = true)
    (hstep : Shutdown.step .start s = some s') : Doomed s' := by
  rw [Shutdown.step] at hstep
  split_ifs at hstep with hidle
  have hthread : s.loopThread ≠ .absent := by simpa [joinable, hidle] using hjoinable
  rw [Shutdown.start, if_neg (by rw [hrunning]; decide)] at hstep
  exact Option.some.inj hstep ▸ .restarting (.inl rfl) hthread

theorem Held.thread_ne {i : ℕ} (h : s.Held i) : s.loopThread ≠ .absent := by
  rcases h with h | ⟨h, _⟩ <;> simp [h]

theorem Doomed.step (h : Doomed s) (hstep : Shutdown.step e s = some s') : Doomed s' := by
  cases h with
  | missed h => exact (h.step hstep).elim .missed .lost
  | lost h =>
    by_cases hstart : e = .start
    · obtain ⟨hrunning, hidle, i, hi⟩ := h
      refine doomed_of_restart hrunning ?_ (hstart ▸ hstep)
      exact decide_eq_true_iff.2 (.inl hi.thread_ne)
    · exact .lost (h.step hstart hstep)
  | restarting hcaller hthread =>
    have hbusy : s.caller ≠ .idle := by rcases hcaller with hc | hc <;> rw [hc] <;> decide
    cases e with
    | start => exact absurd (hstep.symm.trans (if_neg hbusy)) nofun
    | stop => exact absurd (hstep.symm.trans (if_neg hbusy)) nofun
    | wait => exact absurd (hstep.symm.trans (if_neg hbusy)) nofun
    | caller =>
      rcases hcaller with hc | hc
      · simp only [Shutdown.step, Shutdown.callerStep, hc] at hstep
        exact Option.some.inj hstep ▸ .restarting (.inr rfl) hthread
      · simp only [Shutdown.step, Shutdown.callerStep, hc, if_neg hthread] at hstep
        exact Option.some.inj hstep ▸ .terminated rfl
    | loopThread =>
      rw [Shutdown.step] at hstep
      split_ifs at hstep
      refine .restarting ?_ (threadStep_thread hstep).after
      rw [(threadStep_frame hstep).1]
      exact hcaller
  | terminated h =>
    cases e <;> simp [Shutdown.step, Shutdown.callerStep, h] at hstep

/-- No join returns any more. -/
theorem Doomed.wait (h : Doomed s) : Shutdown.step .wait s = none := by
  cases h with
  | missed h =>
    obtain ⟨_, hcaller, _⟩ := h
    rcases hcaller with hc | hc <;> simp [Shutdown.step, hc]
  | lost h =>
    obtain ⟨_, hidle, i, hi⟩ := h
    exact (if_pos hidle).trans hi.wait
  | restarting hcaller _ => rcases hcaller with hc | hc <;> simp [Shutdown.step, hc]
  | terminated h => simp [Shutdown.step, h]

end Shutdown

/-! ### Steps left, and threads -/

namespace Shutdown

variable {s s' : Shutdown} {e : AtomicStep}

/-- How many steps the call in progress has left, those of a thread it is about to start included. -/
def Caller.remaining : Caller → ℕ
  | .starting => 7
  | .looped => 6
  | .stopping => 3
  | .quitted => 2
  | .unreffed => 1
  | .idle | .terminated => 0

def remaining (s : Shutdown) : ℕ :=
  Caller.remaining s.caller + LoopThread.remaining s.loopThread

theorem remaining_threadStep (hstep : s.threadStep = some s') : s'.remaining < s.remaining := by
  rw [remaining, remaining, (threadStep_frame hstep).1]
  exact Nat.add_lt_add_left (threadStep_thread hstep).remaining _

/-- `start` leaves a thread behind, and no other call makes one. -/
theorem callerStep_thread (h : Orderly s) (hstep : s.callerStep = some s') :
    s'.remaining < s.remaining ∧ s'.live = s.live + (if s.caller = .looped then 1 else 0) := by
  have hfresh := h.fresh
  rw [Shutdown.callerStep] at hstep
  split at hstep <;> rename_i hcaller
  · obtain rfl := Option.some.inj hstep
    simp [remaining, Caller.remaining, live, hcaller]
  · have habsent := hfresh (.inr hcaller)
    rw [if_pos habsent] at hstep
    obtain rfl := Option.some.inj hstep
    simp [remaining, Caller.remaining, LoopThread.remaining, live, hcaller, habsent]
  · split at hstep <;> obtain rfl := Option.some.inj hstep <;>
      simp [remaining, Caller.remaining, live, hcaller]
  · obtain rfl := Option.some.inj hstep
    simp [remaining, Caller.remaining, live, hcaller]
  · obtain rfl := Option.some.inj hstep
    simp [remaining, Caller.remaining, live, hcaller]
  · cases hstep
  · cases hstep

/-- A thread is made where `start` assigns it. -/
def made (e : AtomicStep) (s : Shutdown) : ℕ :=
  if e = .caller ∧ s.caller = .looped then 1 else 0

/-- The last step of a thread. -/
def finished (e : AtomicStep) (s : Shutdown) : ℕ :=
  if e = .loopThread ∧ s.loopThread = .left then 1 else 0

theorem live_step (h : Orderly s) (hstep : Shutdown.step e s = some s') :
    s'.live + finished e s = s.live + made e s := by
  cases e with
  | start =>
    rw [Shutdown.step] at hstep
    split_ifs at hstep
    obtain rfl := Option.some.inj hstep
    rw [Shutdown.start]
    split_ifs <;> rfl
  | stop =>
    rw [Shutdown.step] at hstep
    split_ifs at hstep
    obtain rfl := Option.some.inj hstep
    rw [Shutdown.stop]
    split_ifs <;> rfl
  | wait =>
    rw [Shutdown.step] at hstep
    split_ifs at hstep
    rw [Shutdown.wait] at hstep
    split at hstep <;> rename_i hs
    · obtain rfl := Option.some.inj hstep
      rfl
    · obtain rfl := Option.some.inj hstep
      simp [live, finished, made, hs]
    · cases hstep
  | caller => simpa [made, finished] using (callerStep_thread h hstep).2
  | loopThread =>
    rw [Shutdown.step, if_neg h.alive] at hstep
    simpa [made, finished] using (threadStep_thread hstep).live

/-- A step of a call in progress or of the thread brings both nearer to their ends. -/
theorem remaining_step (h : Orderly s) (he : e = .caller ∨ e = .loopThread)
    (hstep : Shutdown.step e s = some s') : s'.remaining < s.remaining := by
  rcases he with rfl | rfl
  · exact (callerStep_thread h hstep).1
  · rw [Shutdown.step, if_neg h.alive] at hstep
    exact remaining_threadStep hstep

/-- A thread that has ended has no steps left to lose. -/
theorem remaining_wait (hstep : Shutdown.step .wait s = some s') : s'.remaining ≤ s.remaining := by
  rw [Shutdown.step] at hstep
  split_ifs at hstep
  rw [Shutdown.wait] at hstep
  split at hstep
  · exact Option.some.inj hstep ▸ Nat.le_refl _
  · exact Option.some.inj hstep ▸ Nat.add_le_add_left (Nat.zero_le _) _
  · cases hstep

theorem remaining_stop (hstep : Shutdown.step .stop s = some s') : s'.remaining ≤ s.remaining + 3 := by
  rw [Shutdown.step] at hstep
  split_ifs at hstep with hidle
  obtain rfl := Option.some.inj hstep
  rw [Shutdown.stop]
  split_ifs
  · exact Nat.le_add_right _ _
  · simp only [remaining, Caller.remaining, hidle]
    omega

theorem Orderly.callerStep_isSome (h : Orderly s) (hbusy : s.caller ≠ .idle) : s.callerStep.isSome := by
  rw [Shutdown.callerStep]
  cases hcaller : s.caller with
  | idle => exact absurd hcaller hbusy
  | terminated => exact absurd hcaller h.alive
  | starting => rfl
  | looped =>
    rw [if_pos (h.fresh (.inr hcaller))]
    rfl
  | stopping => cases s.loop <;> rfl
  | quitted => rfl
  | unreffed => rfl

/-- A call in progress has a timely step, or the thread that its quit would come too early for. -/
theorem Orderly.busy (h : Orderly s) (hbusy : s.caller ≠ .idle) :
    ∃ e, (e = .caller ∨ e = .loopThread) ∧ Timely e s ∧ (Shutdown.step e s).isSome := by
  by_cases hearly : s.caller = .stopping ∧ s.loopThread = .entering s.loop
  · obtain ⟨_, hentering⟩ := hearly
    refine ⟨.loopThread, .inr rfl, ⟨fun hb => (by cases hb.1), fun hb => ?_⟩, ?_⟩
    · cases hentering.symm.trans hb.2.1
    · rw [Shutdown.step, if_neg h.alive, Shutdown.threadStep, hentering]
      cases s.loop <;> rfl
  · refine ⟨.caller, .inl rfl, ⟨fun hb => hearly hb.2, fun hb => (by cases hb.1)⟩, ?_⟩
    exact h.callerStep_isSome hbusy

end Shutdown

/-! ### The destructor -/

inductive Phase where
  | alive
  /-- The destructor has been entered. -/
  | destroying
  | destroyed
  deriving DecidableEq, Repr

inductive Event where
  /-- While the pipeline lives, any step; in the destructor, one of the `stop` in progress or of the thread. -/
  | step (e : AtomicStep)
  /-- The destructor is entered, and calls `stop`. -/
  | destroy
  /-- The destructor has joined the thread, and returns. -/
  | destroyed
  deriving DecidableEq, Repr

/-- The destructor stops the pipeline and does what `wait` does. -/
def Event.atomic : Event → AtomicStep
  | .step e => e
  | .destroy => .stop
  | .destroyed => .wait

/-- Nobody calls a pipeline that is being destroyed. -/
def Event.phaseAfter (e : Event) (phase : Phase) : Option Phase :=
  match e with
  | .step e =>
      if phase = .alive ∨ phase = .destroying ∧ (e = .caller ∨ e = .loopThread) then some phase else none
  | .destroy => if phase = .alive then some .destroying else none
  | .destroyed => if phase = .destroying then some .destroyed else none

structure Lifecycle where
  shutdown : Shutdown := {}
  phase : Phase := .alive
  /-- Loop threads made so far. -/
  created : ℕ := 0
  /-- Loop threads that have ended. -/
  ended : ℕ := 0

namespace Lifecycle

def step (e : Event) (s : Lifecycle) : Option Lifecycle :=
  (e.phaseAfter s.phase).bind fun phase => (s.shutdown.step e.atomic).map fun shutdown =>
    { shutdown, phase, created := s.created + Shutdown.made e.atomic s.shutdown
      ended := s.ended + Shutdown.finished e.atomic s.shutdown }

def Timely (e : Event) (s : Lifecycle) : Prop :=
  Shutdown.Timely e.atomic s.shutdown

instance : DecidableRel Timely := fun _ _ => inferInstanceAs (Decidable (Shutdown.Timely _ _))

structure Safe (s : Lifecycle) : Prop where
  notTerminated : s.shutdown.caller ≠ .terminated
  oneThread : s.created ≤ s.ended + 1
  unrefOnce : s.shutdown.unrefs.Nodup
  joined : s.phase = .destroyed → s.shutdown.loopThread = .absent ∧ s.created = s.ended
  /-- By timely steps the destructor comes to its end, whichever of them are taken. -/
  ends : s.phase = .destroying → ∃ n, ∀ es s', Along step Timely es s → run step es s = some s' →
    es.length ≤ n ∧ (s'.phase = .destroyed ∨ ∃ e, Timely e s' ∧ (step e s').isSome)
  destroyable : ∃ es s', run step es s = some s' ∧ s'.phase = .destroyed

variable {s s' : Lifecycle} {e : Event}

theorem step_eq_some : step e s = some s' ↔ ∃ phase shutdown, e.phaseAfter s.phase = some phase ∧
    s.shutdown.step e.atomic = some shutdown ∧
    s' = { shutdown, phase, created := s.created + Shutdown.made e.atomic s.shutdown
           ended := s.ended + Shutdown.finished e.atomic s.shutdown } := by
  simp only [step, Option.bind_eq_some_iff, Option.map_eq_some_iff]
  grind

/-- What holds while every stopped pipeline is joined before it is started again, and all steps are timely. -/
structure Good (s : Lifecycle) : Prop where
  orderly : s.shutdown.Orderly
  threads : s.created = s.ended + s.shutdown.live
  stopped : s.phase ≠ .alive → s.shutdown.running = false
  joined : s.phase = .destroyed → s.shutdown.loopThread = .absent

theorem good_initial : Good {} :=
  ⟨Shutdown.orderly_initial, rfl, fun _ => rfl, fun _ => rfl⟩

theorem phaseAfter_cases {phase phase' : Phase} (h : e.phaseAfter phase = some phase') :
    (∃ a, e = .step a) ∧ phase = .alive ∧ phase' = .alive ∨
      e = .destroy ∧ phase = .alive ∧ phase' = .destroying ∨
      (e = .step .caller ∨ e = .step .loopThread) ∧ phase = .destroying ∧ phase' = .destroying ∨
      e = .destroyed ∧ phase = .destroying ∧ phase' = .destroyed := by
  cases e with
  | step a =>
    rw [Event.phaseAfter] at h
    split_ifs at h with hphase
    obtain rfl := Option.some.inj h
    rcases hphase with rfl | ⟨rfl, rfl | rfl⟩
    · exact .inl ⟨⟨a, rfl⟩, rfl, rfl⟩
    · exact .inr (.inr (.inl ⟨.inl rfl, rfl, rfl⟩))
    · exact .inr (.inr (.inl ⟨.inr rfl, rfl, rfl⟩))
  | destroy =>
    rw [Event.phaseAfter] at h
    split_ifs at h with hphase
    exact .inr (.inl ⟨rfl, hphase, (Option.some.inj h).symm⟩)
  | destroyed =>
    rw [Event.phaseAfter] at h
    split_ifs at h with hphase
    exact .inr (.inr (.inr ⟨rfl, hphase, (Option.some.inj h).symm⟩))

/-- The start that `JoinsBeforeRestart` excludes. -/
def Restarts (e : Event) (s : Lifecycle) : Prop :=
  e.atomic = .start ∧ s.shutdown.running = false ∧ s.shutdown.joinable = true

/-- The step lemma. -/
theorem step_good (h : Good s) (htimely : Timely e s) (hrestart : ¬Restarts e s) (hstep : step e s = some s') :
    Good s' ∧ s'.shutdown.running = e.atomic.runningAfter s.shutdown.running ∧
      s'.shutdown.joinable = e.atomic.joinableAfter s.shutdown.joinable := by
  obtain ⟨phase, shutdown, hphase, hshutdown, rfl⟩ := step_eq_some.1 hstep
  have hkeeps := h.orderly.step htimely hrestart hshutdown
  refine ⟨⟨hkeeps.orderly, ?_, fun hne => hkeeps.running.trans ?_, fun hdestroyed => ?_⟩, hkeeps.running,
    hkeeps.joinable⟩
  · have hthreads := h.threads
    have hlive := Shutdown.live_step h.orderly hshutdown
    simp only
    omega
  · rcases phaseAfter_cases hphase with ⟨_, _, rfl⟩ | ⟨rfl, _, _⟩ | ⟨he, hp, _⟩ | ⟨rfl, hp, _⟩
    · exact absurd rfl hne
    · rfl
    · have hstopped := h.stopped (by rw [hp]; decide)
      rcases he with rfl | rfl <;> exact hstopped
    · exact h.stopped (by rw [hp]; decide)
  · obtain rfl : phase = .destroyed := hdestroyed
    rcases phaseAfter_cases hphase with ⟨_, _, hp⟩ | ⟨_, _, hp⟩ | ⟨_, _, hp⟩ | ⟨rfl, _, _⟩
    · cases hp
    · cases hp
    · cases hp
    · have hjoinable : shutdown.joinable = false := hkeeps.joinable
      rw [Shutdown.joinable, decide_eq_false_iff_not, not_or, not_not] at hjoinable
      exact hjoinable.1

/-! ### The destructor ends -/

def Phase.remaining : Phase → ℕ
  | .alive => 5
  | .destroying => 1
  | .destroyed => 0

/-- How many steps the destructor is away from its end. -/
def remaining (s : Lifecycle) : ℕ :=
  s.shutdown.remaining + Phase.remaining s.phase

/-- In the destructor every step brings its end nearer, and none starts the pipeline. -/
theorem step_not_alive (h : Good s) (hphase : s.phase ≠ .alive) (hstep : step e s = some s') :
    s'.phase ≠ .alive ∧ ¬Restarts e s ∧ s'.remaining < s.remaining := by
  obtain ⟨phase, shutdown, hafter, hshutdown, rfl⟩ := step_eq_some.1 hstep
  rw [remaining, remaining]
  rcases phaseAfter_cases hafter with ⟨_, hp, _⟩ | ⟨_, hp, _⟩ | ⟨he, hp, rfl⟩ | ⟨rfl, hp, rfl⟩
  · exact absurd hp hphase
  · exact absurd hp hphase
  · have hatomic : e.atomic = .caller ∨ e.atomic = .loopThread := by
      rcases he with rfl | rfl
      · exact .inl rfl
      · exact .inr rfl
    refine ⟨nofun, fun ⟨hstart, _⟩ => ?_, ?_⟩
    · rcases hatomic with hc | hc <;> exact absurd (hc.symm.trans hstart) nofun
    · rw [hp]
      exact Nat.add_lt_add_right (Shutdown.remaining_step h.orderly hatomic hshutdown) _
  · refine ⟨nofun, fun hb => absurd hb.1 nofun, ?_⟩
    have hle := Shutdown.remaining_wait hshutdown
    rw [hp]
    exact Nat.add_lt_add_of_le_of_lt hle Nat.zero_lt_one

/-- The destructor is entered when no call is in progress. It waits for the thread, which has steps of its own. -/
theorem Good.progress (h : Good s) (hphase : s.phase ≠ .destroyed) :
    ∃ e s', Timely e s ∧ ¬Restarts e s ∧ step e s = some s' ∧ s'.remaining < s.remaining := by
  have hatomic : ∀ a shutdown, a = .caller ∨ a = .loopThread → Shutdown.Timely a s.shutdown →
      s.shutdown.step a = some shutdown →
      ∃ e s', Timely e s ∧ ¬Restarts e s ∧ step e s = some s' ∧ s'.remaining < s.remaining := by
    intro a shutdown ha htimely hshutdown
    have hafter : (Event.step a).phaseAfter s.phase = some s.phase := by
      refine if_pos ?_
      cases hp : s.phase with
      | alive => exact .inl rfl
      | destroying => exact .inr ⟨rfl, ha⟩
      | destroyed => exact absurd hp hphase
    refine ⟨.step a, _, htimely, fun ⟨hstart, _⟩ => ?_, step_eq_some.2 ⟨_, _, hafter, hshutdown, rfl⟩,
      Nat.add_lt_add_right (Shutdown.remaining_step h.orderly ha hshutdown) _⟩
    rcases ha with rfl | rfl <;> exact absurd hstart nofun
  by_cases hidle : s.shutdown.caller = .idle
  · have hnoQuit : ∀ a, Shutdown.Timely a s.shutdown := fun a =>
      ⟨fun hb => absurd (hidle.symm.trans hb.2.1) nofun,
        fun hb => hb.2.2.elim (fun hc => absurd (hidle.symm.trans hc) nofun)
          fun hc => absurd (hidle.symm.trans hc) nofun⟩
    cases hp : s.phase with
    | alive =>
      have hshutdown : s.shutdown.step .stop = some s.shutdown.stop := if_pos hidle
      refine ⟨.destroy, _, hnoQuit _, fun hb => absurd hb.1 nofun,
        step_eq_some.2 ⟨.destroying, _, if_pos hp, hshutdown, rfl⟩, ?_⟩
      have hle := Shutdown.remaining_stop hshutdown
      simp only [remaining, hp, Phase.remaining]
      omega
    | destroying =>
      have hrunning := h.stopped (by rw [hp]; decide)
      have hpointer := h.orderly.inv.pointer.loop_eq_none hidle hrunning
      have hstopped : Shutdown.Stopped s.shutdown := ⟨hidle, hpointer, fun i hi =>
        absurd (hpointer.symm.trans (h.orderly.inv.held i hi).1) nofun⟩
      rcases hstopped.step with ⟨shutdown, hwait⟩ | ⟨shutdown, hthread, _⟩
      · have hstep : step .destroyed s = some _ := step_eq_some.2 ⟨.destroyed, shutdown, if_pos hp, hwait, rfl⟩
        have ⟨_, hrestarts, hlt⟩ := step_not_alive h (by rw [hp]; decide) hstep
        exact ⟨.destroyed, _, hnoQuit _, hrestarts, hstep, hlt⟩
      · exact hatomic .loopThread shutdown (.inr rfl) (hnoQuit _) hthread
    | destroyed => exact absurd hp hphase
  · obtain ⟨a, ha, htimely, henabled⟩ := h.orderly.busy hidle
    obtain ⟨shutdown, hshutdown⟩ := Option.isSome_iff_exists.1 henabled
    exact hatomic a shutdown ha htimely hshutdown

theorem Good.destroyable (h : Good s) : ∃ es s', run step es s = some s' ∧ s'.phase = .destroyed := by
  induction hn : s.remaining using Nat.strongRecOn generalizing s with
  | _ n ih =>
    by_cases hphase : s.phase = .destroyed
    · exact ⟨[], s, rfl, hphase⟩
    · obtain ⟨e, s₁, htimely, hrestarts, hstep, hlt⟩ := h.progress hphase
      obtain ⟨es, s', hrun, hdestroyed⟩ := ih _ (hn ▸ hlt) (step_good h htimely hrestarts hstep).1 rfl
      exact ⟨e :: es, s', run_cons_eq_some.2 ⟨s₁, hstep, hrun⟩, hdestroyed⟩

/-- A run in the destructor is no longer than the way to its end, and what it reaches is good. -/
theorem Good.run_destroying (h : Good s) (hphase : s.phase ≠ .alive) {es : List Event}
    (htimely : Along step Timely es s) (hrun : run step es s = some s') :
    Good s' ∧ es.length + s'.remaining ≤ s.remaining := by
  induction es generalizing s with
  | nil => exact Option.some.inj hrun ▸ ⟨h, Nat.le_of_eq (Nat.zero_add _)⟩
  | cons e es ih =>
    obtain ⟨s₁, hs₁, hrest⟩ := run_cons_eq_some.1 hrun
    obtain ⟨hphase₁, hrestarts, hlt⟩ := step_not_alive h hphase hs₁
    obtain ⟨hgood, hle⟩ := ih (step_good h htimely.1 hrestarts hs₁).1 hphase₁ (htimely.2 s₁ hs₁) hrest
    refine ⟨hgood, ?_⟩
    rw [List.length_cons]
    omega

theorem Good.safe (h : Good s) : Safe s where
  notTerminated := h.orderly.alive
  oneThread := h.threads ▸ Nat.add_le_add_left s.shutdown.live_le _
  unrefOnce := h.orderly.unrefOnce
  joined hdestroyed := by
    have habsent := h.joined hdestroyed
    refine ⟨habsent, ?_⟩
    simp [h.threads, Shutdown.live, habsent]
  ends hdestroying := by
    refine ⟨s.remaining, fun es s' htimely hrun => ?_⟩
    obtain ⟨hgood, hle⟩ := h.run_destroying (by rw [hdestroying]; decide) htimely hrun
    refine ⟨by omega, ?_⟩
    by_cases hphase : s'.phase = .destroyed
    · exact .inl hphase
    · obtain ⟨e, s₁, htimely', _, hstep, _⟩ := hgood.progress hphase
      exact .inr ⟨e, htimely', by rw [hstep]; rfl⟩
  destroyable := h.destroyable

/-! ### Which runs are safe -/

/-- In a doomed state the destructor cannot return. -/
theorem doomed_step (h : s.shutdown.Doomed ∧ s.phase ≠ .destroyed) (hstep : step e s = some s') :
    s'.shutdown.Doomed ∧ s'.phase ≠ .destroyed := by
  obtain ⟨phase, shutdown, hafter, hshutdown, rfl⟩ := step_eq_some.1 hstep
  refine ⟨h.1.step hshutdown, ?_⟩
  rcases phaseAfter_cases hafter with ⟨_, _, rfl⟩ | ⟨_, _, rfl⟩ | ⟨_, _, rfl⟩ | ⟨rfl, _, _⟩
  · nofun
  · nofun
  · nofun
  · exact absurd (hshutdown.symm.trans h.1.wait) nofun

/-- The step that breaks the condition dooms the pipeline. -/
theorem doomed_of_not (h : Good s) (hnot : ¬Timely e s ∨ Restarts e s) (hstep : step e s = some s') :
    s'.shutdown.Doomed ∧ s'.phase ≠ .destroyed := by
  obtain ⟨phase, shutdown, hafter, hshutdown, rfl⟩ := step_eq_some.1 hstep
  have hdoomed : shutdown.Doomed := by
    rcases hnot with huntimely | ⟨hstart, hrunning, hjoinable⟩
    · exact Shutdown.doomed_of_untimely h.orderly.inv huntimely hshutdown
    · exact Shutdown.doomed_of_restart hrunning hjoinable (hstart ▸ hshutdown)
  refine ⟨hdoomed, ?_⟩
  rcases phaseAfter_cases hafter with ⟨_, _, rfl⟩ | ⟨_, _, rfl⟩ | ⟨_, _, rfl⟩ | ⟨rfl, _, _⟩
  · nofun
  · nofun
  · nofun
  · rcases hnot with huntimely | ⟨hstart, _⟩
    · exact absurd ⟨fun hb => absurd hb.1 nofun, fun hb => absurd hb.1 nofun⟩ huntimely
    · cases hstart

/-- A run either stays good or is doomed. -/
theorem run_good_or_doomed {es : List Event} (h : Good s) (hrun : run step es s = some s') :
    (JoinsBeforeRestart s.shutdown.running s.shutdown.joinable (es.map Event.atomic) ∧
      Along step Timely es s) ∧ Good s' ∨
    ¬(JoinsBeforeRestart s.shutdown.running s.shutdown.joinable (es.map Event.atomic) ∧
      Along step Timely es s) ∧ s'.shutdown.Doomed ∧ s'.phase ≠ .destroyed := by
  induction es generalizing s with
  | nil => exact .inl ⟨⟨trivial, trivial⟩, Option.some.inj hrun ▸ h⟩
  | cons e es ih =>
    obtain ⟨s₁, hs₁, hrest⟩ := run_cons_eq_some.1 hrun
    by_cases hok : Timely e s ∧ ¬Restarts e s
    · obtain ⟨hgood, hrunning, hjoinable⟩ := step_good h hok.1 hok.2 hs₁
      have halong : Along step Timely (e :: es) s ↔ Along step Timely es s₁ := by
        simp only [Along, hok.1, hs₁, true_and, Option.mem_def, Option.some.injEq, forall_eq']
      have hjoins : JoinsBeforeRestart s.shutdown.running s.shutdown.joinable ((e :: es).map Event.atomic) ↔
          JoinsBeforeRestart s₁.shutdown.running s₁.shutdown.joinable (es.map Event.atomic) := by
        rw [hrunning, hjoinable]
        exact and_iff_right hok.2
      rw [halong, hjoins]
      exact ih hgood hrest
    · refine .inr ⟨fun ⟨hjoins, halong⟩ => hok ⟨halong.1, hjoins.1⟩, ?_⟩
      have hnot : ¬Timely e s ∨ Restarts e s := by
        rwa [not_and_or, not_not] at hok
      exact inv_of_run (fun _ _ _ => doomed_step) (doomed_of_not h hnot hs₁) hrest

/-- **The pipeline stays safe exactly in the runs in which a stopped pipeline is joined before it is started
again and every step is timely.** -/
theorem safe_iff (es : List Event) (s : Lifecycle) (hrun : run step es {} = some s) :
    Safe s ↔ JoinsBeforeRestart false false (es.map Event.atomic) ∧ Along step Timely es {} := by
  rcases run_good_or_doomed good_initial hrun with ⟨hok, hgood⟩ | ⟨hnot, hdoomed⟩
  · exact iff_of_true hgood.safe hok
  · refine iff_of_false (fun hsafe => ?_) hnot
    obtain ⟨es', s', hrun', hdestroyed⟩ := hsafe.destroyable
    exact (inv_of_run (fun _ _ _ => doomed_step) hdoomed hrun').2 hdestroyed

/-- Two rounds, the first of them joined. In the second the destructor stops the pipeline. -/
def twoRounds : List Event :=
  [.step .start, .step .caller, .step .caller, .step .loopThread, .step .loopThread, .step .loopThread,
    .step .stop, .step .caller, .step .caller, .step .caller, .step .loopThread, .step .loopThread, .step .wait,
    .step .start, .step .caller, .step .caller, .step .loopThread, .step .loopThread, .step .loopThread,
    .destroy, .step .caller, .step .caller, .step .caller, .step .loopThread, .step .loopThread, .destroyed]

theorem safe_two_rounds : (run step twoRounds {}).isSome ∧ ∀ s, run step twoRounds {} = some s → Safe s :=
  ⟨by decide, fun s hrun => (safe_iff twoRounds s hrun).2 (by decide)⟩

/-- Stopped and started again: the handle is still joinable, even though the thread has ended. -/
theorem not_safe_restart : (∃ s, run step [.step .start, .step .caller, .step .caller, .step .loopThread,
      .step .loopThread, .step .loopThread, .step .stop, .step .caller, .step .caller, .step .caller,
      .step .loopThread, .step .loopThread, .step .start, .step .caller, .step .caller] {} = some s ∧
      s.shutdown.caller = .terminated ∧ ¬Safe s) ∧
    -- the destructor's quit comes after the thread has read the pointer and before it enters the loop
    ∃ s, run step [.step .start, .step .caller, .step .caller, .step .loopThread, .step .loopThread, .destroy,
      .step .caller, .step .loopThread, .step .caller, .step .caller] {} = some s ∧
      s.phase = .destroying ∧ (∀ e, step e s = none) ∧ ¬Safe s := by
  refine ⟨⟨_, rfl, rfl, fun h => h.notTerminated rfl⟩, _, rfl, rfl, ?_⟩
  refine and_iff_left_of_imp (fun hstuck hsafe => ?_) |>.2 fun e => ?_
  · obtain ⟨es, s', hrun, hdestroyed⟩ := hsafe.destroyable
    obtain rfl := run_of_stuck hstuck hrun
    cases hdestroyed
  · rcases e with (_ | _ | _ | _ | _) | _ | _ <;> rfl

end Lifecycle

end FacePipeline.Pipeline
