import FacePipeline.Tools.FaceServer

/-!
# Whether a signal ends the server

`main` stops the pipeline once, so the one `stop` decides. When its quit comes between the thread's reading of the
pointer and its entering the loop, or the thread reads the pointer between the quit and the clearing of the pointer,
no further step brings the process to a clean exit: the join blocks, or the thread enters a loop without a reference,
of which nothing can be said. Otherwise the process exits by the steps of its own two threads
(`faceServer_exits_iff`).
-/

namespace FacePipeline.Tools

open FacePipeline.Pipeline Runs

namespace FaceServer

/-- The step that the pipeline takes, if it takes one. -/
def pipelineStep (e : ServerStep) (s : FaceServer) : Option AtomicStep :=
  match e with
  | .loopThread => some .loopThread
  | .main => if s.pipeline.caller = .idle then none else some .caller
  | .prepared _ | .noThread | .signal => none

/-- The quit does not come between the thread's reading of the pointer and its entering the loop, and the thread does
not read the pointer between the quit and the clearing of the pointer. -/
def Timely (e : ServerStep) (s : FaceServer) : Prop :=
  ∀ a ∈ pipelineStep e s, Shutdown.Timely a s.pipeline

instance : DecidableRel Timely := fun e s =>
  inferInstanceAs (Decidable (∀ a ∈ pipelineStep e s, Shutdown.Timely a s.pipeline))

/-- The process can still exit, and no loop was entered after its reference had been dropped. -/
def CanExit (s : FaceServer) : Prop :=
  ∃ (es : List ServerStep) (s' : FaceServer) (status : ExitStatus), run step es s = some s' ∧
    s'.main = .exited status ∧ s'.pipeline.staleEntries = []

variable {s s' : FaceServer}

/-! ### A quit that comes too early -/

/-- `main` is in the stop that is lost, or waits for the thread. -/
def Stuck (s : FaceServer) : Prop :=
  s.main = .stopping ∧ (s.pipeline.Missed ∨ s.pipeline.Lost) ∨ s.main = .waiting ∧ s.pipeline.Lost

theorem onPipeline_eq_some {a : AtomicStep} {main : MainThread} :
    s.onPipeline a main = some s' ↔
      ∃ p', Shutdown.step a s.pipeline = some p' ∧ { s with main, pipeline := p' } = s' :=
  Option.map_eq_some_iff

/-- Neither thread can do anything about it. -/
theorem Stuck.step {e : ServerStep} (h : Stuck s) (hstep : FaceServer.step e s = some s') : Stuck s' := by
  obtain ⟨main, shutdown, p⟩ := s
  cases e with
  | prepared ok => rcases h with ⟨rfl, _⟩ | ⟨rfl, _⟩ <;> cases hstep
  | main =>
    rcases h with ⟨rfl, hp⟩ | ⟨rfl, hp⟩
    · simp only [FaceServer.step, mainStep, inCall] at hstep
      split_ifs at hstep with hidle
      · cases hstep
        rcases hp with hp | hp
        · obtain ⟨_, hcaller, _⟩ := hp
          rcases hcaller with hc | hc <;> exact absurd (hc.symm.trans hidle) (by decide)
        · exact .inr ⟨rfl, hp⟩
      · obtain ⟨p', hp', rfl⟩ := onPipeline_eq_some.1 hstep
        rcases hp with hp | hp
        · exact .inl ⟨rfl, hp.step hp'⟩
        · exact absurd hp.2.1 hidle
    · obtain ⟨p', hp', rfl⟩ := onPipeline_eq_some.1 hstep
      have hblocked : Shutdown.step .wait p = none := (hp.blocks List.not_mem_nil rfl).2
      rw [hblocked] at hp'
      cases hp'
  | noThread => rcases h with ⟨rfl, _⟩ | ⟨rfl, _⟩ <;> simp [FaceServer.step] at hstep
  | loopThread =>
    rcases h with ⟨rfl, hp⟩ | ⟨rfl, hp⟩
    · obtain ⟨p', hp', rfl⟩ := onPipeline_eq_some.1 hstep
      refine .inl ⟨rfl, ?_⟩
      rcases hp with hp | hp
      · exact hp.step hp'
      · exact .inr (hp.step (by decide) hp')
    · obtain ⟨p', hp', rfl⟩ := onPipeline_eq_some.1 hstep
      exact .inr ⟨rfl, hp.step (by decide) hp'⟩
  | signal =>
    rcases h with ⟨rfl, hp⟩ | ⟨rfl, hp⟩
    · cases hstep
      exact .inl ⟨rfl, hp⟩
    · cases hstep
      exact .inr ⟨rfl, hp⟩

theorem Stuck.not_canExit (h : Stuck s) : ¬s.CanExit := by
  rintro ⟨es, s', status, hrun, hexited, _⟩
  have hstuck := inv_of_run (fun _ _ _ h hstep => Stuck.step h hstep) h hrun
  rcases hstuck with ⟨hmain, _⟩ | ⟨hmain, _⟩ <;> rw [hmain] at hexited <;> cases hexited

/-! ### A quit that the thread heeds -/

/-- The state after steps that were timely. -/
structure Good (s : FaceServer) : Prop where
  inv : Inv s
  pipeline : s.pipeline.Inv

theorem good_initial : Good {} := ⟨inv_initial, Shutdown.inv_initial⟩

theorem onPipeline_inv {a : AtomicStep} {main : MainThread} (h : s.pipeline.Inv) (htimely : Shutdown.Timely a s.pipeline)
    (hstep : s.onPipeline a main = some s') : s'.pipeline.Inv := by
  obtain ⟨p', hp, rfl⟩ := onPipeline_eq_some.1 hstep
  exact Shutdown.step_inv h htimely hp

theorem inCall_inv {returned : MainThread} (h : s.pipeline.Inv) (htimely : Timely .main s)
    (hstep : s.inCall returned = some s') : s'.pipeline.Inv := by
  rw [inCall] at hstep
  split_ifs at hstep with hidle
  · cases hstep
    exact h
  · exact onPipeline_inv h (htimely _ (by simp [pipelineStep, hidle])) hstep

theorem mainStep_pipeline (h : s.pipeline.Inv) (htimely : Timely .main s) (hstep : s.mainStep = some s') :
    s'.pipeline.Inv := by
  unfold mainStep at hstep
  split at hstep
  · cases hstep
    exact h
  · exact onPipeline_inv h ⟨by simp, by simp⟩ hstep
  · exact inCall_inv h htimely hstep
  · split_ifs at hstep
    · exact onPipeline_inv h ⟨by simp, by simp⟩ hstep
    · cases hstep
      exact h
  · exact inCall_inv h htimely hstep
  · exact onPipeline_inv h ⟨by simp, by simp⟩ hstep
  · exact onPipeline_inv h ⟨by simp, by simp⟩ hstep
  · exact inCall_inv h htimely hstep
  · exact onPipeline_inv h ⟨by simp, by simp⟩ hstep
  · cases hstep
  · cases hstep
  · cases hstep

/-- A `start` that throws has made a loop for which there is no thread. -/
theorem noThread_pipeline (h : Good s) (hmain : s.main = .starting ∧ s.pipeline.caller = .looped) :
    Shutdown.Inv { s.pipeline with caller := .idle } := by
  have hstage := h.inv.stage
  rw [hmain.1] at hstage
  rcases hstage with ⟨hp, _⟩ | ⟨hp, habsent⟩ | hp
  · exact absurd (hmain.2.symm.trans (congrArg (·.2.2.1) hp)) (by decide)
  · have hpointer : s.pipeline.running = s.pipeline.loop.isSome := by
      simp only [members, Prod.mk.injEq] at hp
      rw [hp.1, hp.2.1]
      rfl
    have hfree : ∀ i, ¬Shutdown.Held { s.pipeline with caller := .idle } i := by
      intro i
      exact Shutdown.not_held (by rw [habsent]; simp) (by rw [habsent]; simp)
    refine ⟨hpointer, fun i hi => absurd hi (hfree i), h.pipeline.loop, h.pipeline.unrefs, fun _ => ?_,
      h.pipeline.noStaleEntry⟩
    exact h.pipeline.dropped (by rw [hmain.2]; decide)
  · exact absurd (hmain.2.symm.trans (congrArg (·.2.2.1) hp)) (by decide)

theorem Good.step {e : ServerStep} (h : Good s) (htimely : Timely e s) (hstep : FaceServer.step e s = some s') :
    Good s' := by
  refine ⟨step_inv h.inv hstep, ?_⟩
  cases e with
  | prepared ok =>
    simp only [FaceServer.step] at hstep
    split_ifs at hstep <;> cases hstep <;> exact h.pipeline
  | main => exact mainStep_pipeline h.pipeline htimely hstep
  | noThread =>
    simp only [FaceServer.step] at hstep
    split_ifs at hstep with hmain
    cases hstep
    exact noThread_pipeline h hmain
  | loopThread =>
    simp only [FaceServer.step] at hstep
    split_ifs at hstep
    exact onPipeline_inv h.pipeline (htimely _ rfl) hstep
  | signal =>
    simp only [FaceServer.step] at hstep
    split_ifs at hstep <;> cases hstep <;> exact h.pipeline

/-- Only the stop that `main` calls can meet a thread. -/
theorem stage_stopping {p : Shutdown} {main : MainThread} (h : Stage p main)
    (hcaller : p.caller = .stopping ∨ p.caller = .quitted ∨ p.caller = .unreffed) (hthread : p.loopThread ≠ .absent) :
    main = .stopping := by
  have hother : ∀ {running loop caller loops unrefs}, members p = (running, loop, caller, loops, unrefs) →
      caller ≠ .stopping → caller ≠ .quitted → caller ≠ .unreffed → main = .stopping := by
    intro running loop caller loops unrefs hp h₁ h₂ h₃
    simp only [members, Prod.mk.injEq] at hp
    obtain ⟨_, _, rfl, _, _⟩ := hp
    rcases hcaller with hc | hc | hc
    · exact absurd hc h₁
    · exact absurd hc h₂
    · exact absurd hc h₃
  cases main with
  | stopping => rfl
  | preparing | installing | ready | killed | joining => exact absurd h.2 hthread
  | leaving status | destroying status | exited status => cases status <;> exact absurd h.2 hthread
  | polling | waiting => exact hother h (by decide) (by decide) (by decide)
  | starting =>
    rcases h with h | h | h
    · exact absurd h.2 hthread
    · exact absurd h.2 hthread
    · exact hother h (by decide) (by decide) (by decide)

/-- The step that is too early for the thread, or lets the thread pass behind it, loses the stop. -/
theorem stuck_of_not_timely {e : ServerStep} (h : Good s) (hnot : ¬Timely e s)
    (hstep : FaceServer.step e s = some s') : Stuck s' := by
  obtain ⟨a, ha, huntimely⟩ : ∃ a ∈ pipelineStep e s, ¬Shutdown.Timely a s.pipeline := by
    simpa [Timely] using hnot
  have hmissed := huntimely
  rw [Shutdown.Timely, not_and_or, not_not, not_not] at hmissed
  have hmain : s.main = .stopping := by
    rcases hmissed with ⟨_, hcaller, hthread⟩ | ⟨_, hthread, hcaller⟩
    · exact stage_stopping h.inv.stage (.inl hcaller) (by rw [hthread]; simp)
    · exact stage_stopping h.inv.stage (.inr hcaller) (by rw [hthread]; simp)
  have hpipeline : s.onPipeline a .stopping = some s' := by
    rcases hmissed with ⟨rfl, hcaller, _⟩ | ⟨rfl, _⟩
    · have he : e = .main := by
        cases e <;> simp [pipelineStep] at ha ⊢
      subst he
      simpa [FaceServer.step, mainStep, inCall, hmain, hcaller] using hstep
    · have he : e = .loopThread := by
        cases e <;> simp [pipelineStep] at ha ⊢
      subst he
      simpa [FaceServer.step, hmain, MainThread.over] using hstep
  obtain ⟨p', hp, rfl⟩ := onPipeline_eq_some.1 hpipeline
  exact .inl ⟨rfl, .inl (Shutdown.missed_of_untimely h.pipeline huntimely hp)⟩

/-- The steps of a call that are left. -/
def Caller.remaining : Caller → ℕ
  | .stopping => 3
  | .starting | .quitted => 2
  | .looped | .unreffed => 1
  | .idle | .terminated => 0

/-- The steps `main` has left once the signal is noted. -/
def mainRemaining (s : FaceServer) : ℕ :=
  match s.main with
  | .preparing => 21
  | .installing => 20
  | .ready => 19
  | .starting => 15 + Caller.remaining s.pipeline.caller
  | .polling => 14
  | .stopping => 10 + Caller.remaining s.pipeline.caller
  | .waiting => 9
  | .leaving _ => 8
  | .destroying _ => 3 + Caller.remaining s.pipeline.caller
  | .joining _ => 2
  | .exited _ | .killed => 0

/-- The steps `main` and the loop thread have left; a step of `main` may start the thread. -/
def remaining (s : FaceServer) : ℕ :=
  6 * s.mainRemaining + Shutdown.LoopThread.remaining s.pipeline.loopThread

theorem remaining_le (t : LoopThread) : Shutdown.LoopThread.remaining t ≤ 5 := by
  cases t <;> simp [Shutdown.LoopThread.remaining]

theorem caller_remaining_le (c : Caller) : Caller.remaining c ≤ 3 := by
  cases c <;> decide

theorem starting_progress {p : Shutdown} (h : Stage p .starting) (hidle : p.caller ≠ .idle) :
    ∃ p', p.callerStep = some p' ∧ Caller.remaining p'.caller < Caller.remaining p.caller := by
  obtain ⟨running, loop, thread, caller, loops, isRunning, unrefs, stale⟩ := p
  simp only [Stage, members, Prod.mk.injEq] at h
  rcases h with ⟨⟨rfl, rfl, rfl, rfl, rfl⟩, _⟩ | ⟨⟨rfl, rfl, rfl, rfl, rfl⟩, rfl⟩ | ⟨rfl, rfl, rfl, rfl, rfl⟩
  · exact ⟨_, rfl, show 1 < 2 by decide⟩
  · exact ⟨_, rfl, show 0 < 1 by decide⟩
  · exact absurd rfl hidle

/-- A call of `stop` goes on, whoever has called it. -/
theorem inStop_progress {p : Shutdown} (h : InStop p) (hidle : p.caller ≠ .idle) :
    ∃ p', p.callerStep = some p' ∧ Caller.remaining p'.caller < Caller.remaining p.caller := by
  obtain ⟨running, loop, thread, caller, loops, isRunning, unrefs, stale⟩ := p
  simp only [InStop, members, Prod.mk.injEq] at h
  rcases h with ⟨rfl, rfl, rfl, rfl, rfl⟩ | ⟨rfl, rfl, rfl, rfl, rfl⟩ | ⟨rfl, rfl, rfl, rfl, rfl⟩ |
    ⟨rfl, rfl, rfl, rfl, rfl⟩
  · exact ⟨_, rfl, show 2 < 3 by decide⟩
  · exact ⟨_, rfl, show 1 < 2 by decide⟩
  · exact ⟨_, rfl, show 0 < 1 by decide⟩
  · exact absurd rfl hidle

theorem inCall_of_step {returned : MainThread} {p' : Shutdown} (hidle : s.pipeline.caller ≠ .idle)
    (hstep : s.pipeline.callerStep = some p') : s.inCall returned = some { s with pipeline := p' } := by
  rw [inCall, if_neg hidle, onPipeline, Shutdown.step, hstep]
  rfl

/-- `main` goes on, unless it waits for the thread. -/
theorem mainStep_progress (h : Inv s) (hsignal : s.shutdown = true) (hmain : s.main.over = false)
    (hwait : s.main = .waiting → ∃ p', Shutdown.step .wait s.pipeline = some p') :
    ∃ s', s.mainStep = some s' ∧ s'.shutdown = true ∧ s'.mainRemaining < s.mainRemaining := by
  obtain ⟨main, shutdown, p⟩ := s
  obtain ⟨hstage, hearly, _⟩ := h
  obtain rfl : shutdown = true := hsignal
  have hidle : ∀ {running loop loops unrefs}, members p = (running, loop, .idle, loops, unrefs) → p.caller = .idle :=
    fun hp => congrArg (·.2.2.1) hp
  have hcall : ∀ a : AtomicStep, (a = .start ∨ a = .stop) → p.caller = .idle → ∃ p', Shutdown.step a p = some p' := by
    rintro a (rfl | rfl) hcaller
    · exact ⟨_, if_pos hcaller⟩
    · exact ⟨_, if_pos hcaller⟩
  have hjoin : p.caller = .idle → p.loopThread = .absent → Shutdown.step .wait p = some p := by
    intro hcaller habsent
    rw [Shutdown.step, if_pos hcaller, Shutdown.wait, habsent]
  cases main with
  | preparing => cases hearly rfl
  | installing => cases hearly rfl
  | ready =>
    obtain ⟨p', hp⟩ := hcall .start (.inl rfl) (hidle hstage.1)
    refine ⟨_, onPipeline_eq_some.2 ⟨p', hp, rfl⟩, rfl, ?_⟩
    have hcaller : p'.caller = .starting := congrArg (·.2.2.1) (members_start hstage.1 hp).1
    simp [mainRemaining, hcaller, Caller.remaining]
  | starting =>
    by_cases hcaller : p.caller = .idle
    · refine ⟨_, if_pos hcaller, rfl, ?_⟩
      show 14 < 15 + _
      omega
    · obtain ⟨p', hp, hlt⟩ := starting_progress hstage hcaller
      exact ⟨_, inCall_of_step hcaller hp, rfl, Nat.add_lt_add_left hlt 15⟩
  | polling =>
    obtain ⟨p', hp⟩ := hcall .stop (.inr rfl) (hidle hstage)
    refine ⟨_, onPipeline_eq_some.2 ⟨p', hp, rfl⟩, rfl, ?_⟩
    have hle := caller_remaining_le p'.caller
    show 10 + Caller.remaining p'.caller < 14
    omega
  | stopping =>
    by_cases hcaller : p.caller = .idle
    · refine ⟨_, if_pos hcaller, rfl, ?_⟩
      show 9 < 10 + _
      omega
    · obtain ⟨p', hp, hlt⟩ := inStop_progress hstage hcaller
      exact ⟨_, inCall_of_step hcaller hp, rfl, Nat.add_lt_add_left hlt 10⟩
  | waiting =>
    obtain ⟨p', hp⟩ := hwait rfl
    exact ⟨_, onPipeline_eq_some.2 ⟨p', hp, rfl⟩, rfl, show 8 < 9 by decide⟩
  | leaving status =>
    have hcaller : p.caller = .idle := by cases status <;> exact hidle hstage.1
    obtain ⟨p', hp⟩ := hcall .stop (.inr rfl) hcaller
    refine ⟨_, onPipeline_eq_some.2 ⟨p', hp, rfl⟩, rfl, ?_⟩
    have hle := caller_remaining_le p'.caller
    show 3 + Caller.remaining p'.caller < 8
    omega
  | destroying status =>
    by_cases hcaller : p.caller = .idle
    · refine ⟨_, if_pos hcaller, rfl, ?_⟩
      show 2 < 3 + _
      omega
    · cases status with
      | success => exact absurd (hidle hstage.1) hcaller
      | failure =>
        obtain ⟨p', hp, hlt⟩ := inStop_progress hstage.1 hcaller
        exact ⟨_, inCall_of_step hcaller hp, rfl, Nat.add_lt_add_left hlt 3⟩
  | joining status =>
    exact ⟨_, onPipeline_eq_some.2 ⟨p, hjoin (hidle hstage.1) hstage.2, rfl⟩, rfl, show 0 < 2 by decide⟩
  | exited status => cases hmain
  | killed => cases hmain

/-- A step of `main` that is no step too early. -/
theorem main_progress (h : Good s) (hsignal : s.shutdown = true) (hmain : s.main.over = false)
    (hwait : s.main = .waiting → ∃ p', Shutdown.step .wait s.pipeline = some p') (htimely : Timely .main s) :
    ∃ e s', FaceServer.step e s = some s' ∧ Timely e s ∧ s'.shutdown = true ∧ s'.remaining < s.remaining := by
  obtain ⟨s', hs', hsignal', hlt⟩ := mainStep_progress h.inv hsignal hmain hwait
  refine ⟨.main, s', hs', htimely, hsignal', ?_⟩
  have hle := remaining_le s'.pipeline.loopThread
  simp only [remaining]
  omega

/-- A step of the loop thread. -/
theorem loopThread_progress {p' : Shutdown} (hsignal : s.shutdown = true) (hmain : s.main.over = false)
    (hstep : Shutdown.step .loopThread s.pipeline = some p') (htimely : Shutdown.Timely .loopThread s.pipeline)
    (hlt : Shutdown.LoopThread.remaining p'.loopThread < Shutdown.LoopThread.remaining s.pipeline.loopThread) :
    ∃ e s', FaceServer.step e s = some s' ∧ Timely e s ∧ s'.shutdown = true ∧ s'.remaining < s.remaining := by
  have hcaller : p'.caller = s.pipeline.caller := by
    rw [Shutdown.step] at hstep
    split_ifs at hstep
    exact (Shutdown.threadStep_frame hstep).1
  refine ⟨.loopThread, { s with pipeline := p' }, ?_, ?_, hsignal, ?_⟩
  · simp only [FaceServer.step, hmain, Bool.false_eq_true, if_false]
    exact onPipeline_eq_some.2 ⟨p', hstep, rfl⟩
  · rintro a ⟨⟩
    exact htimely
  · simp only [remaining, mainRemaining, hcaller]
    omega

/-- `main` goes on where that is timely; the thread goes on where `main` has to let it pass or waits for it. -/
theorem Good.progress (h : Good s) (hsignal : s.shutdown = true) (hmain : s.main.over = false) :
    ∃ e s', FaceServer.step e s = some s' ∧ Timely e s ∧ s'.shutdown = true ∧ s'.remaining < s.remaining := by
  by_cases hpass : s.pipeline.caller = .stopping ∧ s.pipeline.loopThread = .entering s.pipeline.loop
  · obtain ⟨hcaller, hthread⟩ := hpass
    have hpointer := h.pipeline.pointer
    simp only [Shutdown.Pointer, hcaller] at hpointer
    obtain ⟨i, hloop⟩ := Option.isSome_iff_exists.1 hpointer.2
    rw [hloop] at hthread
    have hstep : Shutdown.step .loopThread s.pipeline = s.pipeline.threadStep := if_neg (by rw [hcaller]; decide)
    rw [Shutdown.threadStep, hthread] at hstep
    refine loopThread_progress hsignal hmain hstep ⟨by simp, by simp [hthread]⟩ ?_
    rw [hthread]
    exact show 2 < 3 by decide
  · have htimely : Timely .main s := by
      intro a ha
      simp only [pipelineStep] at ha
      split_ifs at ha with hidle
      · cases ha
      · cases ha
        exact ⟨fun hb => hpass hb.2, by simp⟩
    by_cases hwaiting : s.main = .waiting
    · have hstage := h.inv.stage
      rw [hwaiting] at hstage
      have hidle : s.pipeline.caller = .idle := congrArg (·.2.2.1) hstage
      have hloop : s.pipeline.loop = none := congrArg (·.2.1) hstage
      have hstopped : s.pipeline.Stopped := by
        refine ⟨hidle, hloop, fun i hi => ?_⟩
        have hheld := (h.pipeline.held i hi).1
        rw [hloop] at hheld
        cases hheld
      rcases hstopped.step with hwait | ⟨p', hp, _, hlt⟩
      · exact main_progress h hsignal hmain (fun _ => hwait) htimely
      · exact loopThread_progress hsignal hmain hp ⟨by simp, by simp [hidle]⟩ hlt
    · exact main_progress h hsignal hmain (fun hw => absurd hw hwaiting) htimely

theorem Good.canExit (h : Good s) (hsignal : s.shutdown = true) : s.CanExit := by
  induction hn : s.remaining using Nat.strongRecOn generalizing s with
  | _ n ih =>
    cases hover : s.main.over with
    | true =>
      cases hmain : s.main with
      | exited status => exact ⟨[], s, status, rfl, hmain, h.pipeline.noStaleEntry⟩
      | killed =>
        have hquiet := h.inv.early (by rw [hmain]; rfl)
        rw [hsignal] at hquiet
        cases hquiet
      | _ => rw [hmain] at hover; cases hover
    | false =>
      obtain ⟨e, s₁, hs₁, htimely, hsignal₁, hlt⟩ := h.progress hsignal hover
      obtain ⟨es, s', status, hrun, hexited⟩ := ih _ (hn ▸ hlt) (h.step htimely hs₁) hsignal₁ rfl
      exact ⟨e :: es, s', status, run_cons_eq_some.2 ⟨s₁, hs₁, hrun⟩, hexited⟩

/-- **A signal brings the process to a clean exit exactly when every step was timely.** -/
theorem faceServer_exits_iff (es : List ServerStep) (s : FaceServer) (hrun : run step es {} = some s)
    (hsignal : s.shutdown = true) : s.CanExit ↔ Along step Timely es {} := by
  constructor
  · intro hexit
    by_contra hnot
    obtain ⟨es₁, e, es₂, s₁, s₂, rfl, _, hgood, huntimely, hs₂, hrest⟩ :=
      exists_first_of_not_along (fun _ _ _ => Good.step) good_initial hnot hrun
    obtain ⟨es', s', status, hrun', hexited⟩ := hexit
    exact (stuck_of_not_timely hgood huntimely hs₂).not_canExit
      ⟨es₂ ++ es', s', status, run_append_eq_some.2 ⟨s, hrest, hrun'⟩, hexited⟩
  · intro htimely
    have hgood : Good s := inv_of_along (fun _ _ _ => Good.step) good_initial htimely hrun
    exact hgood.canExit hsignal

/-- The signal comes while the thread is in the loop; and it comes when the thread has just read the pointer. -/
theorem faceServer_exits_iff_twoSignals :
    (∃ s, run step [.prepared true, .main, .main, .main, .main, .loopThread, .loopThread, .loopThread, .main, .signal]
      {} = some s ∧ s.CanExit) ∧
    ∃ s, run step [.prepared true, .main, .main, .main, .main, .loopThread, .loopThread, .main, .signal, .main, .main]
      {} = some s ∧ ¬s.CanExit := by
  refine ⟨⟨_, rfl, ?_⟩, _, rfl, ?_⟩
  · refine (faceServer_exits_iff [.prepared true, .main, .main, .main, .main, .loopThread, .loopThread, .loopThread,
      .main, .signal] _ rfl rfl).2 ?_
    decide
  · intro hexit
    have htimely := (faceServer_exits_iff [.prepared true, .main, .main, .main, .main, .loopThread, .loopThread, .main,
      .signal, .main, .main] _ rfl rfl).1 hexit
    revert htimely
    decide

end FaceServer

end FacePipeline.Tools
