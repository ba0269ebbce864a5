import FacePipeline.Pipeline.Shutdown

/-!
# The server process

`main` prepares the components, starts the pipeline, polls a flag that the signal handler sets, and then stops the
pipeline and waits for it; the destructor of the pipeline stops and joins once more. The process is that thread, the
loop thread of the pipeline and the signals that arrive, in any interleaving.

`main` starts the pipeline once, so that it never assigns to a thread that is still joinable, and drops the loop it has
made once (`faceServer_safe`). What is followed is the main loop and its thread. The arguments have been read: `--help`
and a missing `--config` end the process before anything is made.
-/

namespace FacePipeline.Tools

open FacePipeline.Pipeline Runs

inductive ExitStatus where
  | success
  | failure
  deriving DecidableEq, Repr

/-- What `main` does next. -/
inductive MainThread where
  /-- It loads the configuration and builds the components, the pipeline last. -/
  | preparing
  /-- It installs the signal handlers. -/
  | installing
  /-- It calls `start`. -/
  | ready
  /-- In `start`. -/
  | starting
  /-- It loads the flag. -/
  | polling
  /-- In `stop`. -/
  | stopping
  /-- It calls `wait`. -/
  | waiting
  /-- The destructor of the pipeline calls `stop`. -/
  | leaving (status : ExitStatus)
  /-- In the `stop` of the destructor. -/
  | destroying (status : ExitStatus)
  /-- The destructor joins the loop thread. -/
  | joining (status : ExitStatus)
  | exited (status : ExitStatus)
  /-- By a signal without a handler. -/
  | killed
  deriving DecidableEq, Repr

/-- The process is gone. -/
def MainThread.over : MainThread → Bool
  | .exited _ | .killed => true
  | _ => false

/-- Before the handlers are installed no signal is noted. -/
def MainThread.early : MainThread → Bool
  | .preparing | .installing | .killed => true
  | _ => false

/-- `main` goes on to exit with success only after a signal. -/
def MainThread.afterSignal : MainThread → Bool
  | .stopping | .waiting | .leaving .success | .destroying .success | .joining .success | .exited .success => true
  | _ => false

structure FaceServer where
  main : MainThread := .preparing
  /-- `g_shutdown`. -/
  shutdown : Bool := false
  pipeline : Shutdown := {}

inductive ServerStep where
  /-- The components are built, or one of their constructors throws. -/
  | prepared (ok : Bool)
  | main
  /-- The constructor of `std::thread` throws in `start`. -/
  | noThread
  | loopThread
  | signal
  deriving DecidableEq, Repr

namespace FaceServer

/-- A step of the pipeline, and where `main` is after it. -/
def onPipeline (s : FaceServer) (e : AtomicStep) (main : MainThread) : Option FaceServer :=
  (Shutdown.step e s.pipeline).map fun pipeline => { s with main, pipeline }

/-- A call in progress goes on, or has returned. -/
def inCall (s : FaceServer) (returned : MainThread) : Option FaceServer :=
  if s.pipeline.caller = .idle then some { s with main := returned } else s.onPipeline .caller s.main

def mainStep (s : FaceServer) : Option FaceServer :=
  match s.main with
  | .installing => some { s with main := .ready }
  | .ready => s.onPipeline .start .starting
  | .starting => s.inCall .polling
  | .polling => if s.shutdown then s.onPipeline .stop .stopping else some s
  | .stopping => s.inCall .waiting
  | .waiting => s.onPipeline .wait (.leaving .success)
  | .leaving status => s.onPipeline .stop (.destroying status)
  | .destroying status => s.inCall (.joining status)
  | .joining status => s.onPipeline .wait (.exited status)
  | .preparing | .exited _ | .killed => none

def step (e : ServerStep) (s : FaceServer) : Option FaceServer :=
  match e with
  | .prepared ok =>
      if s.main = .preparing then some { s with main := if ok then .installing else .exited .failure } else none
  | .main => s.mainStep
  | .noThread =>
      -- the exception leaves `start`, and the pipeline is destroyed on the way to the handler
      if s.main = .starting ∧ s.pipeline.caller = .looped then
        some { s with main := .leaving .failure, pipeline := { s.pipeline with caller := .idle } }
      else none
  | .loopThread => if s.main.over then none else s.onPipeline .loopThread s.main
  | .signal =>
      if s.main.over then none
      else if s.main = .preparing ∨ s.main = .installing then some { s with main := .killed }
      else some { s with shutdown := true }

/-- What holds in every state. -/
structure Safe (s : FaceServer) : Prop where
  notTerminated : s.pipeline.caller ≠ .terminated
  /-- One loop at most is made, and its reference is dropped once at most. -/
  oneLoop : s.pipeline.loops ≤ 1
  unrefOnce : s.pipeline.unrefs.Nodup
  /-- An exit with success follows a signal, joins the thread and drops the loop. -/
  success : s.main = .exited .success →
    s.shutdown = true ∧ s.pipeline.loopThread = .absent ∧ s.pipeline.unrefs = [0]
  /-- So does an exit with failure that has made a loop, and no thread was started before it. -/
  failure : s.main = .exited .failure →
    s.pipeline.loopThread = .absent ∧ s.pipeline.unrefs = List.range s.pipeline.loops

/-! ### Where `main` is, and what it has done to the pipeline -/

/-- The members that no step of the loop thread changes. -/
def members (p : Shutdown) : Bool × Option ℕ × Caller × ℕ × List ℕ :=
  (p.running, p.loop, p.caller, p.loops, p.unrefs)

/-- Inside a `stop` that has something to stop, and after it. -/
def InStop (p : Shutdown) : Prop :=
  members p = (false, some 0, .stopping, 1, []) ∨ members p = (false, some 0, .quitted, 1, []) ∨
    members p = (false, some 0, .unreffed, 1, [0]) ∨ members p = (false, none, .idle, 1, [0])

/-- The members at each point of `main`. -/
def Stage (p : Shutdown) : MainThread → Prop
  | .preparing | .installing | .ready | .killed => members p = (false, none, .idle, 0, []) ∧ p.loopThread = .absent
  | .starting => members p = (true, none, .starting, 0, []) ∧ p.loopThread = .absent ∨
      members p = (true, some 0, .looped, 1, []) ∧ p.loopThread = .absent ∨ members p = (true, some 0, .idle, 1, [])
  | .polling => members p = (true, some 0, .idle, 1, [])
  | .stopping => InStop p
  | .waiting => members p = (false, none, .idle, 1, [0])
  | .leaving .failure => members p = (true, some 0, .idle, 1, []) ∧ p.loopThread = .absent
  | .destroying .failure => InStop p ∧ p.loopThread = .absent
  | .leaving .success | .destroying .success | .joining _ | .exited .success =>
      members p = (false, none, .idle, 1, [0]) ∧ p.loopThread = .absent
  | .exited .failure => (members p = (false, none, .idle, 1, [0]) ∨ members p = (false, none, .idle, 0, [])) ∧
      p.loopThread = .absent

structure Inv (s : FaceServer) : Prop where
  stage : Stage s.pipeline s.main
  early : s.main.early = true → s.shutdown = false
  afterSignal : s.main.afterSignal = true → s.shutdown = true

theorem inv_initial : Inv {} :=
  ⟨⟨rfl, rfl⟩, fun _ => rfl, fun h => absurd h (by decide)⟩

variable {s s' : FaceServer}

/-! ### The calls of `main` -/

section Calls

variable {p p' : Shutdown}

theorem members_start (h : members p = (false, none, .idle, 0, [])) (hstep : Shutdown.step .start p = some p') :
    members p' = (true, none, .starting, 0, []) ∧ p'.loopThread = p.loopThread := by
  obtain ⟨running, loop, thread, caller, loops, isRunning, unrefs, stale⟩ := p
  simp only [members, Prod.mk.injEq] at h
  obtain ⟨rfl, rfl, rfl, rfl, rfl⟩ := h
  cases hstep
  exact ⟨rfl, rfl⟩

theorem members_callerStep_starting (h : members p = (true, none, .starting, 0, []))
    (hstep : p.callerStep = some p') :
    members p' = (true, some 0, .looped, 1, []) ∧ p'.loopThread = p.loopThread := by
  obtain ⟨running, loop, thread, caller, loops, isRunning, unrefs, stale⟩ := p
  simp only [members, Prod.mk.injEq] at h
  obtain ⟨rfl, rfl, rfl, rfl, rfl⟩ := h
  cases hstep
  exact ⟨rfl, rfl⟩

/-- The handle is not joinable at the one assignment there is. -/
theorem members_callerStep_looped (h : members p = (true, some 0, .looped, 1, [])) (habsent : p.loopThread = .absent)
    (hstep : p.callerStep = some p') : members p' = (true, some 0, .idle, 1, []) := by
  obtain ⟨running, loop, thread, caller, loops, isRunning, unrefs, stale⟩ := p
  simp only [members, Prod.mk.injEq] at h
  obtain ⟨rfl, rfl, rfl, rfl, rfl⟩ := h
  obtain rfl : thread = .absent := habsent
  cases hstep
  rfl

theorem inStop_stop (h : members p = (true, some 0, .idle, 1, [])) (hstep : Shutdown.step .stop p = some p') :
    InStop p' ∧ p'.loopThread = p.loopThread := by
  obtain ⟨running, loop, thread, caller, loops, isRunning, unrefs, stale⟩ := p
  simp only [members, Prod.mk.injEq] at h
  obtain ⟨rfl, rfl, rfl, rfl, rfl⟩ := h
  cases hstep
  exact ⟨.inl rfl, rfl⟩

theorem inStop_callerStep (h : InStop p) (hstep : p.callerStep = some p') :
    InStop p' ∧ p'.loopThread = p.loopThread := by
  obtain ⟨running, loop, thread, caller, loops, isRunning, unrefs, stale⟩ := p
  simp only [InStop, members, Prod.mk.injEq] at h
  rcases h with ⟨rfl, rfl, rfl, rfl, rfl⟩ | ⟨rfl, rfl, rfl, rfl, rfl⟩ | ⟨rfl, rfl, rfl, rfl, rfl⟩ |
    ⟨rfl, rfl, rfl, rfl, rfl⟩
  · cases hstep
    exact ⟨.inr (.inl rfl), rfl⟩
  · cases hstep
    exact ⟨.inr (.inr (.inl rfl)), rfl⟩
  · cases hstep
    exact ⟨.inr (.inr (.inr rfl)), rfl⟩
  · cases hstep

/-- A `stop` that finds the pipeline stopped. -/
theorem stop_again (h : members p = (false, none, .idle, 1, [0])) (hstep : Shutdown.step .stop p = some p') : p' = p := by
  obtain ⟨running, loop, thread, caller, loops, isRunning, unrefs, stale⟩ := p
  simp only [members, Prod.mk.injEq] at h
  obtain ⟨rfl, rfl, rfl, rfl, rfl⟩ := h
  cases hstep
  rfl

theorem inStop_idle (h : InStop p) (hidle : p.caller = .idle) : members p = (false, none, .idle, 1, [0]) := by
  rcases h with h | h | h | h
  · exact absurd (hidle.symm.trans (congrArg (·.2.2.1) h)) (by decide)
  · exact absurd (hidle.symm.trans (congrArg (·.2.2.1) h)) (by decide)
  · exact absurd (hidle.symm.trans (congrArg (·.2.2.1) h)) (by decide)
  · exact h

theorem members_wait (hstep : Shutdown.step .wait p = some p') : members p' = members p ∧ p'.loopThread = .absent := by
  rw [Shutdown.step] at hstep
  split_ifs at hstep
  rw [Shutdown.wait] at hstep
  split at hstep
  · next habsent =>
    cases hstep
    exact ⟨rfl, habsent⟩
  · cases hstep
    exact ⟨rfl, rfl⟩
  · cases hstep

theorem members_threadStep (hstep : p.threadStep = some p') : members p' = members p ∧ p.loopThread ≠ .absent := by
  rw [Shutdown.threadStep] at hstep
  split at hstep <;> rename_i hthread
  · exact Option.some.inj hstep ▸ ⟨rfl, by simp [hthread]⟩
  · exact Option.some.inj hstep ▸ ⟨rfl, by simp [hthread]⟩
  · exact Option.some.inj hstep ▸ ⟨rfl, by simp [hthread]⟩
  · exact Option.some.inj hstep ▸ ⟨rfl, by simp [hthread]⟩
  · split_ifs at hstep
    exact Option.some.inj hstep ▸ ⟨rfl, by simp [hthread]⟩
  · exact Option.some.inj hstep ▸ ⟨rfl, by simp [hthread]⟩
  · cases hstep
  · cases hstep

end Calls

/-! ### One step -/

theorem mainStep_inv (h : Inv s) (hstep : s.mainStep = some s') : Inv s' := by
  obtain ⟨main, shutdown, p⟩ := s
  obtain ⟨hstage, hearly, hafter⟩ := h
  -- neither set of places has the new one
  have hlate : ∀ {main' : MainThread} {p' : Shutdown}, Stage p' main' → main'.early = false →
      main'.afterSignal = false ∨ shutdown = true → Inv ⟨main', shutdown, p'⟩ := by
    intro main' p' hstage' hlate hsignal
    refine ⟨hstage', fun he => absurd (hlate.symm.trans he) (by decide), fun ha => ?_⟩
    rcases hsignal with hsignal | hsignal
    · exact absurd (hsignal.symm.trans ha) (by decide)
    · exact hsignal
  cases main with
  | preparing => cases hstep
  | installing =>
    cases hstep
    exact hlate hstage rfl (.inl rfl)
  | ready =>
    obtain ⟨p', hp, rfl⟩ := Option.map_eq_some_iff.1 hstep
    obtain ⟨hmembers, hthread⟩ := members_start hstage.1 hp
    exact hlate (.inl ⟨hmembers, hthread.trans hstage.2⟩) rfl (.inl rfl)
  | starting =>
    rcases hstage with ⟨hp, habsent⟩ | ⟨hp, habsent⟩ | hp
    · have hcaller : p.caller = .starting := congrArg (·.2.2.1) hp
      simp only [mainStep, inCall, hcaller] at hstep
      obtain ⟨p', hp', rfl⟩ := Option.map_eq_some_iff.1 hstep
      obtain ⟨hmembers, hthread⟩ := members_callerStep_starting hp hp'
      exact hlate (.inr (.inl ⟨hmembers, hthread.trans habsent⟩)) rfl (.inl rfl)
    · have hcaller : p.caller = .looped := congrArg (·.2.2.1) hp
      simp only [mainStep, inCall, hcaller] at hstep
      obtain ⟨p', hp', rfl⟩ := Option.map_eq_some_iff.1 hstep
      exact hlate (.inr (.inr (members_callerStep_looped hp habsent hp'))) rfl (.inl rfl)
    · have hcaller : p.caller = .idle := congrArg (·.2.2.1) hp
      simp only [mainStep, inCall, hcaller] at hstep
      cases hstep
      exact hlate hp rfl (.inl rfl)
  | polling =>
    cases shutdown with
    | false =>
      cases hstep
      exact hlate hstage rfl (.inl rfl)
    | true =>
      obtain ⟨p', hp, rfl⟩ := Option.map_eq_some_iff.1 hstep
      exact hlate (inStop_stop hstage hp).1 rfl (.inr rfl)
  | stopping =>
    have hsignal : shutdown = true := hafter rfl
    simp only [mainStep, inCall] at hstep
    split_ifs at hstep with hidle
    · cases hstep
      exact hlate (inStop_idle hstage hidle) rfl (.inr hsignal)
    · obtain ⟨p', hp, rfl⟩ := Option.map_eq_some_iff.1 hstep
      exact hlate (inStop_callerStep hstage hp).1 rfl (.inr hsignal)
  | waiting =>
    obtain ⟨p', hp, rfl⟩ := Option.map_eq_some_iff.1 hstep
    obtain ⟨hmembers, habsent⟩ := members_wait hp
    exact hlate ⟨hmembers.trans hstage, habsent⟩ rfl (.inr (hafter rfl))
  | leaving status =>
    obtain ⟨p', hp, rfl⟩ := Option.map_eq_some_iff.1 hstep
    cases status with
    | success =>
      obtain rfl := stop_again hstage.1 hp
      exact hlate hstage rfl (.inr (hafter rfl))
    | failure =>
      obtain ⟨hstop, hthread⟩ := inStop_stop hstage.1 hp
      exact hlate ⟨hstop, hthread.trans hstage.2⟩ rfl (.inl rfl)
  | destroying status =>
    simp only [mainStep, inCall] at hstep
    cases status with
    | success =>
      have hidle : p.caller = .idle := congrArg (·.2.2.1) hstage.1
      rw [if_pos hidle] at hstep
      cases hstep
      exact hlate hstage rfl (.inr (hafter rfl))
    | failure =>
      split_ifs at hstep with hidle
      · cases hstep
        exact hlate ⟨inStop_idle hstage.1 hidle, hstage.2⟩ rfl (.inl rfl)
      · obtain ⟨p', hp, rfl⟩ := Option.map_eq_some_iff.1 hstep
        obtain ⟨hstop, hthread⟩ := inStop_callerStep hstage.1 hp
        exact hlate ⟨hstop, hthread.trans hstage.2⟩ rfl (.inl rfl)
  | joining status =>
    obtain ⟨p', hp, rfl⟩ := Option.map_eq_some_iff.1 hstep
    obtain ⟨hmembers, habsent⟩ := members_wait hp
    cases status with
    | success => exact hlate ⟨hmembers.trans hstage.1, habsent⟩ rfl (.inr (hafter rfl))
    | failure => exact hlate ⟨.inl (hmembers.trans hstage.1), habsent⟩ rfl (.inl rfl)
  | exited status => cases hstep
  | killed => cases hstep

/-- The loop thread runs only where it may. -/
theorem stage_loopThread {p p' : Shutdown} {main : MainThread} (h : Stage p main) (hstep : p.threadStep = some p') :
    Stage p' main := by
  obtain ⟨hmembers, hthread⟩ := members_threadStep hstep
  have hsame : ∀ q, members p = q → members p' = q := fun q hq => hmembers.trans hq
  cases main with
  | preparing | installing | ready | killed => exact absurd h.2 hthread
  | starting =>
    rcases h with h | h | h
    · exact absurd h.2 hthread
    · exact absurd h.2 hthread
    · exact .inr (.inr (hsame _ h))
  | polling | waiting => exact hsame _ h
  | stopping => exact h.imp (hsame _) (Or.imp (hsame _) (Or.imp (hsame _) (hsame _)))
  | leaving status | destroying status | exited status => cases status <;> exact absurd h.2 hthread
  | joining status => exact absurd h.2 hthread

theorem early_iff {main : MainThread} :
    main.early = true ↔ main = .preparing ∨ main = .installing ∨ main = .killed := by
  cases main <;> simp [MainThread.early]

theorem step_inv {e : ServerStep} (h : Inv s) (hstep : step e s = some s') : Inv s' := by
  cases e with
  | prepared ok =>
    simp only [step] at hstep
    split_ifs at hstep with hmain hok
    · cases hstep
      have hstage := h.stage
      rw [hmain] at hstage
      have hquiet := h.early (by rw [hmain]; rfl)
      exact ⟨hstage, fun _ => hquiet, fun ha => absurd ha Bool.false_ne_true⟩
    · cases hstep
      have hstage := h.stage
      rw [hmain] at hstage
      exact ⟨⟨.inr hstage.1, hstage.2⟩, fun he => absurd he Bool.false_ne_true, fun ha => absurd ha Bool.false_ne_true⟩
  | main => exact mainStep_inv h hstep
  | noThread =>
    simp only [step] at hstep
    split_ifs at hstep with hmain
    cases hstep
    have hstage := h.stage
    rw [hmain.1] at hstage
    refine ⟨?_, fun he => absurd he Bool.false_ne_true, fun ha => absurd ha Bool.false_ne_true⟩
    rcases hstage with ⟨hp, _⟩ | ⟨hp, habsent⟩ | hp
    · exact absurd (hmain.2.symm.trans (congrArg (·.2.2.1) hp)) (by decide)
    · simp only [members, Prod.mk.injEq] at hp
      obtain ⟨hrunning, hloop, _, hloops, hunrefs⟩ := hp
      refine ⟨?_, habsent⟩
      simp only [members, hrunning, hloop, hloops, hunrefs]
    · exact absurd (hmain.2.symm.trans (congrArg (·.2.2.1) hp)) (by decide)
  | loopThread =>
    simp only [step] at hstep
    split_ifs at hstep
    obtain ⟨p', hp, rfl⟩ := Option.map_eq_some_iff.1 hstep
    rw [Shutdown.step] at hp
    split_ifs at hp
    exact ⟨stage_loopThread h.stage hp, h.early, h.afterSignal⟩
  | signal =>
    simp only [step] at hstep
    split_ifs at hstep with hover hmain
    · cases hstep
      have hstage : members s.pipeline = (false, none, .idle, 0, []) ∧ s.pipeline.loopThread = .absent := by
        have hstage := h.stage
        rcases hmain with hmain | hmain
        · rwa [hmain] at hstage
        · rwa [hmain] at hstage
      have hquiet : s.shutdown = false := by
        rcases hmain with hmain | hmain
        · exact h.early (by rw [hmain]; rfl)
        · exact h.early (by rw [hmain]; rfl)
      exact ⟨hstage, fun _ => hquiet, fun ha => absurd ha Bool.false_ne_true⟩
    · cases hstep
      refine ⟨h.stage, fun he => ?_, fun _ => rfl⟩
      rcases early_iff.1 he with he | he | he
      · exact absurd (.inl he) hmain
      · exact absurd (.inr he) hmain
      · have he : s.main = .killed := he
        rw [he] at hover
        exact absurd rfl hover

/-- The members say how far the one loop has come. -/
theorem Stage.members_cases {p : Shutdown} {main : MainThread} (h : Stage p main) :
    p.caller ≠ .terminated ∧ (p.loops = 0 ∧ p.unrefs = [] ∨ p.loops = 1 ∧ (p.unrefs = [] ∨ p.unrefs = [0])) := by
  have hread : ∀ {running loop caller loops unrefs}, members p = (running, loop, caller, loops, unrefs) →
      caller ≠ .terminated → (loops = 0 ∧ unrefs = [] ∨ loops = 1 ∧ (unrefs = [] ∨ unrefs = [0])) →
      p.caller ≠ .terminated ∧ (p.loops = 0 ∧ p.unrefs = [] ∨ p.loops = 1 ∧ (p.unrefs = [] ∨ p.unrefs = [0])) := by
    intro running loop caller loops unrefs hp hcaller hloops
    simp only [members, Prod.mk.injEq] at hp
    obtain ⟨_, _, rfl, rfl, rfl⟩ := hp
    exact ⟨hcaller, hloops⟩
  have hstop : InStop p → p.caller ≠ .terminated ∧
      (p.loops = 0 ∧ p.unrefs = [] ∨ p.loops = 1 ∧ (p.unrefs = [] ∨ p.unrefs = [0])) := by
    intro h
    rcases h with h | h | h | h <;> exact hread h (by decide) (by decide)
  cases main with
  | preparing | installing | ready | killed => exact hread h.1 (by decide) (by decide)
  | starting => rcases h with ⟨h, _⟩ | ⟨h, _⟩ | h <;> exact hread h (by decide) (by decide)
  | polling | waiting => exact hread h (by decide) (by decide)
  | stopping => exact hstop h
  | leaving status => cases status <;> exact hread h.1 (by decide) (by decide)
  | destroying status =>
    cases status with
    | success => exact hread h.1 (by decide) (by decide)
    | failure => exact hstop h.1
  | joining status => exact hread h.1 (by decide) (by decide)
  | exited status =>
    cases status with
    | success => exact hread h.1 (by decide) (by decide)
    | failure => rcases h.1 with h | h <;> exact hread h (by decide) (by decide)

theorem Inv.safe (h : Inv s) : Safe s := by
  obtain ⟨hcaller, hloops⟩ := h.stage.members_cases
  refine ⟨hcaller, by omega, ?_, fun hmain => ?_, fun hmain => ?_⟩
  · rcases hloops with ⟨_, hunrefs⟩ | ⟨_, hunrefs | hunrefs⟩ <;> simp [hunrefs]
  · have hstage := h.stage
    rw [hmain] at hstage
    exact ⟨h.afterSignal (by rw [hmain]; rfl), hstage.2, congrArg (·.2.2.2.2) hstage.1⟩
  · have hstage := h.stage
    rw [hmain] at hstage
    obtain ⟨hp | hp, habsent⟩ := hstage
    · have hloops : s.pipeline.loops = 1 := congrArg (·.2.2.2.1) hp
      exact ⟨habsent, by rw [hloops]; exact congrArg (·.2.2.2.2) hp⟩
    · have hloops : s.pipeline.loops = 0 := congrArg (·.2.2.2.1) hp
      exact ⟨habsent, by rw [hloops]; exact congrArg (·.2.2.2.2) hp⟩

/-- **The server makes one loop, drops it once and never assigns to a joinable thread, whenever the signals come and
whatever fails.** -/
theorem faceServer_safe (es : List ServerStep) (s : FaceServer) (hrun : run step es {} = some s) : Safe s :=
  (inv_of_run (fun _ _ _ h hstep => step_inv h hstep) inv_initial hrun).safe

/-- A signal comes, and the process exits. -/
theorem faceServer_safe_signal : ∃ s, run step [.prepared true, .main, .main, .main, .main, .loopThread, .loopThread,
    .loopThread, .main, .signal, .main, .main, .main, .main, .main, .loopThread, .loopThread, .main, .main, .main,
    .main] {} = some s ∧ s.main = .exited .success ∧ Safe s :=
  ⟨_, rfl, rfl, faceServer_safe [.prepared true, .main, .main, .main, .main, .loopThread, .loopThread, .loopThread,
    .main, .signal, .main, .main, .main, .main, .main, .loopThread, .loopThread, .main, .main, .main, .main] _ rfl⟩

end FaceServer

end FacePipeline.Tools
