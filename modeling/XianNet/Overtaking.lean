import XianNet.Interleaving.History
import XianNet.Token

/-!
# Overtaking in the global queue

However often a service is sent to or put back, it waits in the global queue
at most once. A service that waits can therefore be passed only by those that
were ahead of it when it was pushed, and by each of them once.
-/

namespace XianNet

open Interleaving

variable {σ : Shared} {C : State → Label → Prop} {s s₁ s₂ : State} {tr : List Label}

def Op.pushedGlobal : Op → List ServiceRef
  | .pushGlobal r => [r]
  | _ => []

def Op.poppedGlobal : Op → List ServiceRef
  | .popGlobal r => [r]
  | _ => []

/-- The services pushed into the global queue, in order. -/
def pushedGlobal (tr : List Label) : List ServiceRef := tr.flatMap (·.op.pushedGlobal)

/-- The services popped from the global queue, in order. -/
def poppedGlobal (tr : List Label) : List ServiceRef := tr.flatMap (·.op.poppedGlobal)

theorem op_of_pushedGlobal {op : Op} (h : op.pushedGlobal = [r]) : op = .pushGlobal r := by
  cases op <;> cases h
  rfl

theorem globalServiceQueue_step (h : Frame.step σ f c = some (op, fs)) :
    σ.globalServiceQueue ++ op.pushedGlobal =
      op.poppedGlobal ++ (σ.apply op).globalServiceQueue := by
  cases op with
  | popGlobal r =>
    obtain ⟨w, queue, -, hq, -⟩ := popGlobal_op h
    rw [globalServiceQueue_popGlobal, hq]
    simp [Op.pushedGlobal, Op.poppedGlobal]
  | pushGlobal => rfl
  | _ => exact List.append_nil _

theorem globalServiceQueue_fifo (h : system.Exec C s tr s₁) :
    s.shared.globalServiceQueue ++ pushedGlobal tr =
      poppedGlobal tr ++ s₁.shared.globalServiceQueue := by
  refine h.fifo Shared.globalServiceQueue (·.op.pushedGlobal) (·.op.poppedGlobal) ?_
  intro pre s₁ l s₂ _ _ hs
  obtain ⟨fs, R, hm, -, -, hsh⟩ := hs.frames
  rw [hsh]
  exact globalServiceQueue_step hm

theorem Reach.queue_nodup (h : system.Reach C (initial n p k) s) :
    s.shared.globalServiceQueue.Nodup := by
  refine List.nodup_iff_count_le_one.mpr ?_
  intro r
  have ht := Reach.tokensOk h r
  have hone := (s.shared.services r).isInGlobalQueue.toNat_le
  omega

/-- Until `r` is popped, every other service is popped at most once, and no
more of them than were ahead of `r`. -/
theorem overtaken_once (h : system.Reach Any (initial n p k) s) (hpush : system.Step s l s₁)
    (hop : l.op = .pushGlobal r) (hrun : system.Exec Any s₁ tr s₂) (hnot : r ∉ poppedGlobal tr) :
    (∀ r', (poppedGlobal tr).count r' ≤ 1) ∧
      (poppedGlobal tr).length ≤ s.shared.globalServiceQueue.length := by
  have hq : s₁.shared.globalServiceQueue = s.shared.globalServiceQueue ++ [r] := by
    obtain ⟨fs, R, -, -, -, hsh⟩ := hpush.frames
    rw [hsh, hop]; rfl
  have hfifo := globalServiceQueue_fifo hrun
  rw [hq, List.append_assoc] at hfifo
  have hpre := prefix_of_notMem hnot hfifo
  exact ⟨fun r' => (hpre.sublist.count_le r').trans
    (List.nodup_iff_count_le_one.mp (Reach.queue_nodup h) r'), hpre.length_le⟩

/-- Service 0 is pushed behind service 1, which is popped first. -/
theorem overtaken_once_behind :
    ∃ s l s₁ tr s₂, system.Reach Any (initial 1 (fun i => 1 <<< i) 2) s ∧ system.Step s l s₁ ∧
      l.op = .pushGlobal 0 ∧ system.Exec Any s₁ tr s₂ ∧ poppedGlobal tr = [1] ∧
      (∀ r', (poppedGlobal tr).count r' ≤ 1) ∧
      (poppedGlobal tr).length ≤ s.shared.globalServiceQueue.length := by
  have h : ((system.run Any (initial 1 (fun i => 1 <<< i) 2)
      (creates 3 ++ creates 3 ++ sends 3 1 4 ++ sends 4 0 3)).any fun s =>
      (system.next s 4 .go).any (fun r => r.1.op.pushedGlobal = [0] ∧
        (system.record Any r.2 (steps 0 3)).any (fun r => poppedGlobal r.1 = [1]) = true) = true) =
      true := by decide +kernel
  obtain ⟨s, hs, hnext⟩ := Machine.exists_of_run h
  obtain ⟨l, s₁, hl, -, -, hop, hrun⟩ := Machine.exists_of_next hnext
  obtain ⟨tr, s₂, htr, hpop⟩ := Machine.exists_of_record hrun
  have hop := op_of_pushedGlobal hop
  exact ⟨s, l, s₁, tr, s₂, hs, hl, hop, htr, hpop,
    overtaken_once hs hl hop htr (by simp [hpop])⟩

end XianNet
