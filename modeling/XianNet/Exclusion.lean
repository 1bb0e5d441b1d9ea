import XianNet.Token

/-!
# Mutual exclusion of a service

`base_service.h` says the flag means "in the queue, or being processed".
`PopGlobalServiceQueue` clears it before the processing, so a send wins the
swap while a worker still holds the service, and a second worker pops it:
`held_twice`. As long as nobody wins the swap of one service in that window, the
flag of this service together with its holders is a lock: `exclusive_of_unheld`.
-/

namespace XianNet

open Interleaving

variable {σ σ' : Shared} {C : State → Label → Prop} {s : State} {r : ServiceRef}

/-- The worker is between the return of `PopGlobalServiceQueue` with `r` and the
end of `ProcessMessages`. -/
def Frame.holding (r : ServiceRef) : Frame → Bool
  | .worker _ (.processMessages r' _) => r' = r
  | _ => false

def Holds (s : State) (t : Nat) (r : ServiceRef) : Prop :=
  ∃ stack, s.threads[t]? = some stack ∧ ∃ f ∈ stack, Frame.holding r f = true

def Exclusive (r : ServiceRef) (s : State) : Prop :=
  ∀ t t', Holds s t r → Holds s t' r → t = t'

def Op.raised : Op → Option ServiceRef
  | .raiseFlag r => some r
  | _ => none

/-- The step does not win the flag swap of `r` while a worker holds it. -/
def Unheld (r : ServiceRef) (s : State) (l : Label) : Prop :=
  r ∈ l.op.raised → (s.shared.services r).isInGlobalQueue = false →
    ∀ f ∈ s.frames, Frame.holding r f = false

instance (r : ServiceRef) (s : State) (l : Label) : Decidable (Unheld r s l) :=
  inferInstanceAs (Decidable (r ∈ l.op.raised → _))

def Frame.held (r : ServiceRef) (f : Frame) : Nat := (f.holding r).toNat

/-- At most one of: the flag is set, a worker holds the service. -/
def HeldOk (r : ServiceRef) (σ : Shared) (F : Multiset Frame) : Prop :=
  (σ.services r).isInGlobalQueue.toNat + weigh (Frame.held r) F ≤ 1

theorem Frame.held_of_isCall (h : Frame.isCall g) : Frame.held r g = 0 := by
  cases g with
  | worker => cases h
  | _ => rfl

section
variable {f : Frame} {fs : List Frame} {R : Multiset Frame}

theorem HeldOk.neutral (hi : HeldOk r σ (f ::ₘ R))
    (hfs : weigh (Frame.held r) (fs : Multiset Frame) ≤ f.held r)
    (hflag : (σ'.services r).isInGlobalQueue = (σ.services r).isInGlobalQueue) :
    HeldOk r σ' ((fs : Multiset Frame) + R) := by
  rw [HeldOk, weigh_cons] at hi
  rw [HeldOk, weigh_add, hflag]
  omega

theorem HeldOk.swap (hi : HeldOk r σ (f ::ₘ R))
    (hfs : weigh (Frame.held r) (fs : Multiset Frame) = 0)
    (hc : r = r' → (σ.services r).isInGlobalQueue = false →
      ∀ g ∈ f ::ₘ R, Frame.holding r g = false) :
    HeldOk r (σ.apply (.raiseFlag r')) ((fs : Multiset Frame) + R) := by
  rw [HeldOk, weigh_cons] at hi
  rw [HeldOk, weigh_add, hfs, flag_raiseFlag]
  split
  · rename_i hr
    cases hflag : (σ.services r).isInGlobalQueue
    · have hnone : weigh (Frame.held r) R = 0 := weigh_eq_zero fun g hg => by
        rw [Frame.held, hc hr hflag g (Multiset.mem_cons_of_mem hg)]
        rfl
      rw [hnone]; simp
    · rw [hflag] at hi; omega
  · omega

theorem HeldOk.clear (hi : HeldOk r σ (.worker w (.clearFlag r') ::ₘ R))
    (ht : TokensOk σ (.worker w (.clearFlag r') ::ₘ R)) :
    HeldOk r (σ.apply (.clearFlag r')) (.worker w (.processMessages r' 0) ::ₘ R) := by
  rw [HeldOk, weigh_cons] at hi
  rw [HeldOk, weigh_cons, flag_clearFlag]
  split
  · -- The worker still has its token, so the flag is set and nobody holds `r`.
    rename_i hr
    subst hr
    have hflag := ht.flag_of_token (r := r) (by simp)
    rw [hflag] at hi
    simp [Frame.held, Frame.holding] at hi ⊢
    omega
  · rename_i hr
    simpa [Frame.held, Frame.holding, Ne.symm hr] using hi

theorem HeldOk.step (hi : HeldOk r σ (f ::ₘ R)) (ht : TokensOk σ (f ::ₘ R))
    (hr : RefsOk σ (f ::ₘ R))
    (hc : r ∈ op.raised → (σ.services r).isInGlobalQueue = false →
      ∀ g ∈ f ::ₘ R, Frame.holding r g = false)
    (h : Frame.step σ f c = some (op, fs)) : HeldOk r (σ.apply op) ((fs : Multiset Frame) + R) := by
  cases f with
  | worker w pc =>
    cases WorkerPc.step_cases h with
    | clearFlag => exact hi.clear ht
    | popNoMessage => exact hi.neutral (Nat.le_refl _) rfl
    | popMessage => exact hi.neutral (by simp [Frame.held, Frame.holding]) (flag_popMessage ..)
    | won | lost => exact hi.swap rfl fun heq => hc (heq ▸ rfl)
    | @block p op next hp =>
      refine hi.neutral ?_ (by rw [services_sleep hp.isSleep])
      cases next <;> exact Nat.zero_le _
    | _ => exact hi.neutral (Nat.zero_le _) rfl
  | send pc =>
    cases SendPc.step_cases h with
    | won | lost => exact hi.swap rfl fun heq => hc (heq ▸ rfl)
    | pushMessage => exact hi.neutral (Nat.zero_le _) (flag_pushMessage ..)
    | @wakeUp p op next hp =>
      refine hi.neutral ?_ (by rw [services_sleep hp.isSleep])
      cases next <;> exact Nat.zero_le _
    | _ => exact hi.neutral (Nat.zero_le _) rfl
  | _ =>
    have ho := step_other rfl h
    refine hi.neutral ?_ ((ho.same hr).flag r)
    rw [weigh_eq_zero fun g hg => Frame.held_of_isCall (ho.calls g hg)]
    exact Nat.zero_le _

end

theorem Reach.heldOk (h : system.Reach (Unheld r) (initial n p k) s) :
    HeldOk r s.shared s.frames := by
  refine h.invariant ?_ ?_
  · rw [HeldOk, weigh_eq_zero]
    · exact Nat.zero_le _
    · intro f hf
      rcases mem_initial_frames hf with ⟨i, -, rfl⟩ | rfl | rfl | rfl <;> rfl
  · intro s l fs R hr hc hF hm hi
    exact hi.step (hF ▸ Reach.tokensOk hr) (hF ▸ Reach.refsOk hr) (hF ▸ hc) hm

theorem HeldOk.holder (hi : HeldOk r s.shared s.frames) (hs : Holds s t r) (hs' : Holds s t' r) :
    t = t' := by
  obtain ⟨stack, ht, f, hf, hh⟩ := hs
  obtain ⟨stack', ht', f', hf', hh'⟩ := hs'
  by_contra hne
  have htwo := State.two_le_countP (Frame.holding r ·) ht ht' hne hf hh hf' hh'
  rw [← weigh_toNat] at htwo
  exact absurd (htwo.trans ((Nat.le_add_left _ _).trans hi)) (by decide)

/-- Two workers hold one service after a send in the window. -/
theorem held_twice : ∃ s, system.Reach Any (initial 2 (fun i => 1 <<< i) 1) s ∧
    ¬ Exclusive 0 s := by
  have h : ((system.run Any (initial 2 (fun i => 1 <<< i) 1)
      (creates 4 ++ sends 4 0 5 ++ steps 0 2 ++ sends 4 0 5 ++ steps 1 2)).any fun s =>
        s.threads[0]? = some [.worker ⟨0, 1⟩ (.processMessages 0 0)] ∧
        s.threads[1]? = some [.worker ⟨1, 2⟩ (.processMessages 0 0)]) = true := by
    decide +kernel
  obtain ⟨s, hs, h0, h1⟩ := Machine.exists_of_run h
  refine ⟨s, hs, ?_⟩
  intro hx
  have heq := hx 0 1 ⟨_, h0, _, List.mem_singleton_self _, rfl⟩
    ⟨_, h1, _, List.mem_singleton_self _, rfl⟩
  cases heq

/-- No swap won while the service is held, no two holders. -/
theorem exclusive_of_unheld (h : system.Reach (Unheld r) (initial n p k) s) : Exclusive r s :=
  fun _ _ => (Reach.heldOk h).holder

/-- Service 1 is queued while it is held, and service 0 has one holder all the
same. -/
theorem exclusive_of_unheld_busy : ∃ s,
    system.Reach (Unheld 0) (initial 2 (fun i => 1 <<< i) 1) s ∧
      (s.shared.services 1).isInGlobalQueue = true ∧ Holds s 1 1 ∧ Holds s 0 0 ∧ Exclusive 0 s := by
  have h : ((system.run (Unheld 0) (initial 2 (fun i => 1 <<< i) 1)
      (creates 4 ++ creates 4 ++ sends 4 0 5 ++ steps 0 2 ++ sends 4 1 5 ++ steps 1 2 ++
        sends 4 1 5)).any fun s =>
        (s.shared.services 1).isInGlobalQueue ∧
        s.threads[0]? = some [.worker ⟨0, 1⟩ (.processMessages 0 0)] ∧
        s.threads[1]? = some [.worker ⟨1, 2⟩ (.processMessages 1 0)]) = true := by
    decide +kernel
  obtain ⟨s, hs, hflag, h0, h1⟩ := Machine.exists_of_run h
  exact ⟨s, hs, hflag, ⟨_, h1, _, List.mem_singleton_self _, rfl⟩,
    ⟨_, h0, _, List.mem_singleton_self _, rfl⟩, exclusive_of_unheld hs⟩

end XianNet
