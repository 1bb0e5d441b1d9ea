import XianNet.Interleaving.Rules
import XianNet.Token

/-!
# No message is stranded

A service with messages is in the global queue, or some thread is at a point
from which it will put it there or has just been told that it need not. The
proof is `Reach.obligation`: the queue is the mark, and `Frame.owes` says who
is in charge of a service that is not in it.
-/

namespace XianNet

open Interleaving

variable {σ σ' : Shared} {C : State → Label → Prop} {s : State}

/-- A worker popped `r`, and neither saw its queue empty in `CheckAndPutGlobal`
nor finished the swap there. -/
def Frame.inRound (r : ServiceRef) : Frame → Bool
  | .worker _ (.clearFlag r') | .worker _ (.processMessages r' _) | .worker _ (.checkExisting r')
  | .worker _ (.checkEmpty r') | .worker _ (.checkAndPush (.swap r')) => r' = r
  | _ => false

/-- The frame will still look after `r`. -/
def Frame.owes (r : ServiceRef) : Frame → Prop
  | .send (.checkAndPush p) => p.ref = r
  | .worker _ pc => r ∈ pc.refs
  | _ => False

def Pending (σ : Shared) (r : ServiceRef) : Prop :=
  (σ.services r).isExisting = false ∧ (σ.services r).messageQueue ≠ []

theorem owes_cases (h : Frame.owes r f) :
    f.pushing r ∨ f = .send (.checkAndPush (.swap r)) ∨ f.inRound r := by
  cases f with
  | send pc =>
    cases pc with
    | checkAndPush p => cases p <;> cases h <;> simp [Frame.pushing, PushPc.ref]
    | _ => cases h
  | worker w pc =>
    cases pc with
    | popFront | block => cases h
    | checkAndPush p =>
      cases p <;> cases List.mem_singleton.mp h <;> simp [Frame.pushing, Frame.inRound, PushPc.ref]
    | _ => cases List.mem_singleton.mp h; simp [Frame.inRound]
  | _ => cases h

theorem owes_of_token (h : Frame.token r f ≠ 0) : f.owes r := by
  cases f with
  | send pc =>
    cases pc with
    | checkAndPush p =>
      cases p <;> simp_all [Frame.token, Frame.pushing, Frame.clearing, Frame.owes, PushPc.ref]
    | _ => exact absurd rfl h
  | worker w pc =>
    cases pc with
    | clearFlag => simp_all [Frame.token, Frame.pushing, Frame.clearing, Frame.owes, WorkerPc.refs]
    | checkAndPush p =>
      cases p <;>
        simp_all [Frame.token, Frame.pushing, Frame.clearing, Frame.owes, WorkerPc.refs, PushPc.ref]
    | _ => exact absurd rfl h
  | _ => exact absurd rfl h

-- ---------------------------------------------------------------------------
-- Handing the service on
-- ---------------------------------------------------------------------------

/-- What a step must achieve for a service that is pending after it. -/
def Handed (σ σ' : Shared) (f : Frame) (F' : Multiset Frame) (r : ServiceRef) : Prop :=
  r ∈ σ'.globalServiceQueue ∨ (∃ g ∈ F', Frame.owes r g) ∨
    (Pending σ r ∧ r ∉ σ.globalServiceQueue ∧ ¬ f.owes r)

section
variable {f : Frame} {fs : List Frame} {R : Multiset Frame}

/-- The step leaves the mark, and its own charge goes to a frame it creates. -/
theorem Handed.keep (hp : Pending σ r) (hq : r ∈ σ.globalServiceQueue → r ∈ σ'.globalServiceQueue)
    (hf : f.owes r → ∃ g ∈ fs, Frame.owes r g) : Handed σ σ' f ((fs : Multiset Frame) + R) r := by
  by_cases hm : r ∈ σ.globalServiceQueue
  · exact .inl (hq hm)
  · by_cases ho : f.owes r
    · obtain ⟨g, hg, ho⟩ := hf ho
      exact .inr (.inl ⟨g, Multiset.mem_add.mpr (.inl hg), ho⟩)
    · exact .inr (.inr ⟨hp, hm, ho⟩)

theorem Handed.frame (hg : g ∈ fs) (ho : Frame.owes r g) :
    Handed σ σ' f ((fs : Multiset Frame) + R) r :=
  .inr (.inl ⟨g, Multiset.mem_add.mpr (.inl hg), ho⟩)

/-- A lost swap relies on whoever set the flag. -/
theorem Handed.lost (ht : TokensOk σ (f ::ₘ R)) (hflag : (σ.services r).isInGlobalQueue = true)
    (hf : f.token r = 0) (hq : σ'.globalServiceQueue = σ.globalServiceQueue) :
    Handed σ σ' f ((fs : Multiset Frame) + R) r := by
  by_cases hm : r ∈ σ.globalServiceQueue
  · exact .inl (hq ▸ hm)
  · have hr := ht r
    rw [hflag, weigh_cons, hf, List.count_eq_zero_of_not_mem hm] at hr
    obtain ⟨g, hg, hne⟩ := exists_of_weigh_ne_zero (w := Frame.token r) (F := R) (by
      intro hzero; rw [hzero] at hr; cases hr)
    exact .inr (.inl ⟨g, Multiset.mem_add.mpr (.inr hg), owes_of_token hne⟩)

end

theorem SameScheduling.pending (h : SameScheduling σ σ') (hp : Pending σ' r) : Pending σ r := by
  refine ⟨?_, h.messages r ▸ hp.2⟩
  by_contra he
  rw [Bool.not_eq_false] at he
  exact absurd (h.existing r he) (by simp [hp.1])

theorem Pending.before {op : Op} (hp : Pending (σ.apply op) r) (hop : op.isScheduling)
    (hm : ((σ.apply op).services r).messageQueue = (σ.services r).messageQueue) : Pending σ r :=
  ⟨existing_scheduling hop ▸ hp.1, hm ▸ hp.2⟩

-- ---------------------------------------------------------------------------
-- Every step
-- ---------------------------------------------------------------------------

section
variable {R : Multiset Frame}

theorem handed_send (ht : TokensOk σ (.send pc ::ₘ R)) (h : pc.step σ c = some (op, fs))
    (hp : Pending (σ.apply op) r) :
    Handed σ (σ.apply op) (.send pc) ((fs : Multiset Frame) + R) r := by
  cases SendPc.step_cases h with
  | unknown | found => exact .keep hp id (by simp [Frame.owes])
  | @pushMessage r' m =>
    by_cases hr : r = r'
    · exact .frame (List.mem_singleton_self _) (by simp [Frame.owes, PushPc.ref, hr])
    · refine .keep (hp.before rfl ?_) id (by simp [Frame.owes])
      rw [messageQueue_pushMessage, if_neg hr]
  | won =>
    exact .keep (hp.before rfl (messageQueue_raiseFlag ..)) id (by simp [Frame.owes, PushPc.ref])
  | @lost r' hflag =>
    by_cases hr : r = r'
    · exact .lost ht (hr ▸ hflag) rfl rfl
    · refine .keep (hp.before rfl (messageQueue_raiseFlag ..)) id ?_
      simp [Frame.owes, PushPc.ref, Ne.symm hr]
  | @push r' =>
    by_cases hr : r = r'
    · exact .inl (by simp [hr])
    · refine .keep (hp.before rfl rfl) (List.mem_append_left _) ?_
      simp [Frame.owes, PushPc.ref, Ne.symm hr]
  | wakeUp hw =>
    have hop := hw.isSleep
    rw [Pending, services_sleep hop] at hp
    exact .keep hp (globalServiceQueue_sleep hop ▸ id) (by simp [Frame.owes])

theorem handed_worker (ht : TokensOk σ (.worker w pc ::ₘ R)) (h : pc.step σ w = some (op, fs))
    (hp : Pending (σ.apply op) r) :
    Handed σ (σ.apply op) (.worker w pc) ((fs : Multiset Frame) + R) r := by
  cases WorkerPc.step_cases h with
  | @pop r' queue hq =>
    by_cases hr : r = r'
    · exact .frame (List.mem_singleton_self _) (by simp [Frame.owes, WorkerPc.refs, hr])
    · refine .keep (hp.before rfl rfl) ?_ (by simp [Frame.owes, WorkerPc.refs])
      intro hm
      rw [hq] at hm
      rw [globalServiceQueue_popGlobal, hq]
      exact List.mem_of_ne_of_mem hr hm
  | clearFlag =>
    exact .keep (hp.before rfl (messageQueue_clearFlag ..)) id (by simp [Frame.owes, WorkerPc.refs])
  | @popMessage r' m messages i _ hq =>
    by_cases hr : r = r'
    · refine .frame (List.mem_cons_of_mem _ (List.mem_singleton_self _)) ?_
      simp [Frame.owes, WorkerPc.refs, hr]
    · refine .keep (hp.before rfl ?_) id (by simp [Frame.owes, WorkerPc.refs])
      rw [messageQueue_popMessage, if_neg hr]
  | @exiting r' he =>
    refine .keep hp id ?_
    intro ho
    cases List.mem_singleton.mp ho
    exact absurd hp.1 (by simp [Shared.apply, he])
  | @empty r' hq =>
    refine .keep hp id ?_
    intro ho
    cases List.mem_singleton.mp ho
    exact absurd hq hp.2
  | won =>
    exact .keep (hp.before rfl (messageQueue_raiseFlag ..)) id
      (by simp [Frame.owes, WorkerPc.refs, PushPc.ref])
  | @lost r' hflag =>
    by_cases hr : r = r'
    · exact .lost ht (hr ▸ hflag) rfl rfl
    · refine .keep (hp.before rfl (messageQueue_raiseFlag ..)) id ?_
      simp [Frame.owes, WorkerPc.refs, PushPc.ref, hr]
  | @push r' =>
    by_cases hr : r = r'
    · exact .inl (by simp [hr])
    · refine .keep (hp.before rfl rfl) (List.mem_append_left _) ?_
      simp [Frame.owes, WorkerPc.refs, PushPc.ref, hr]
  | block hb =>
    have hop := hb.isSleep
    rw [Pending, services_sleep hop] at hp
    exact .keep hp (globalServiceQueue_sleep hop ▸ id) (by simp [Frame.owes, WorkerPc.refs])
  | _ => exact .keep hp id (by simp [Frame.owes, WorkerPc.refs, PushPc.ref])

theorem handed_step (ht : TokensOk σ (f ::ₘ R)) (hr : RefsOk σ (f ::ₘ R))
    (h : Frame.step σ f c = some (op, fs)) (hp : Pending (σ.apply op) r) :
    Handed σ (σ.apply op) f ((fs : Multiset Frame) + R) r := by
  cases f with
  | worker w pc => exact handed_worker ht h hp
  | send pc => exact handed_send ht h hp
  | _ =>
    have ho := step_other rfl h
    have hs := ho.same hr
    exact .keep (hs.pending hp) (hs.queue ▸ id) (by simp [Frame.owes])

end

theorem Reach.pending (h : system.Reach C (initial n p k) s) :
    ∀ r, Pending s.shared r → r ∈ s.shared.globalServiceQueue ∨ ∃ f ∈ s.frames, Frame.owes r f := by
  refine h.obligation Pending (fun σ r => r ∈ σ.globalServiceQueue) (fun _ f r => f.owes r)
    (fun r hr => absurd rfl hr.2) (fun _ _ _ _ _ _ _ _ _ _ _ hch => hch) ?_
  intro s l fs R hr _ hF hm r hp
  exact handed_step (hF ▸ Reach.tokensOk hr) (hF ▸ Reach.refsOk hr) hm hp

/-- The frame is in the middle of inserting a service, or of a round. -/
def Frame.midway : Frame → Bool
  | .send (.checkAndPush _) => true
  | .worker _ .popFront | .worker _ (.block _) => false
  | .worker _ _ => true
  | _ => false

theorem midway_of_owes (h : Frame.owes r f) : f.midway := by
  cases f with
  | send pc => cases pc <;> first | rfl | cases h
  | worker w pc => cases pc <;> first | rfl | cases h
  | _ => cases h

/-- Every pending service is queued, or some thread is about to see to it. -/
theorem not_stranded (h : system.Reach Any (initial n p k) s) :
    (∀ r, (s.shared.services r).isExisting = false → (s.shared.services r).messageQueue ≠ [] →
      r ∈ s.shared.globalServiceQueue ∨ (∃ f ∈ s.frames, f.pushing r) ∨
        .send (.checkAndPush (.swap r)) ∈ s.frames ∨ ∃ f ∈ s.frames, f.inRound r) ∧
    ((∀ f ∈ s.frames, f.midway = false) →
      ∀ r, (s.shared.services r).isExisting = false → (s.shared.services r).messageQueue ≠ [] →
        r ∈ s.shared.globalServiceQueue) := by
  refine ⟨fun r he hq => ?_, fun hmid r he hq => ?_⟩ <;>
    rcases Reach.pending h r ⟨he, hq⟩ with hm | ⟨f, hf, ho⟩
  · exact .inl hm
  · rcases owes_cases ho with hp | rfl | hr
    · exact .inr (.inl ⟨f, hf, hp⟩)
    · exact .inr (.inr (.inl hf))
    · exact .inr (.inr (.inr ⟨f, hf, hr⟩))
  · exact hm
  · exact absurd (midway_of_owes ho) (by simp [hmid f hf])

/-- The window of a sender between its push and its swap. -/
theorem not_stranded_sending : ∃ s, system.Reach Any (initial 1 (fun i => 1 <<< i) 1) s ∧
    (s.shared.services 0).messageQueue.length = 1 ∧ 0 ∉ s.shared.globalServiceQueue ∧
    ((∃ f ∈ s.frames, f.pushing 0) ∨ .send (.checkAndPush (.swap 0)) ∈ s.frames ∨
      ∃ f ∈ s.frames, f.inRound 0) := by
  have h : ((system.run Any (initial 1 (fun i => 1 <<< i) 1) (creates 3 ++ sends 3 0 2)).any fun s =>
      (s.shared.services 0).isExisting = false ∧ (s.shared.services 0).messageQueue.length = 1 ∧
      0 ∉ s.shared.globalServiceQueue) = true := by decide +kernel
  obtain ⟨s, hs, he, hlen, hq⟩ := Machine.exists_of_run h
  have hne : (s.shared.services 0).messageQueue ≠ [] := fun hnil => by simp [hnil] at hlen
  exact ⟨s, hs, hlen, hq, ((not_stranded hs).1 0 he hne).resolve_left hq⟩

end XianNet
