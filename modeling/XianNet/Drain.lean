import Mathlib.Algebra.BigOperators.Group.Finset.Piecewise
import XianNet.Pending
import XianNet.Workers

/-!
# Draining

Once nobody sends, rounds end. A service may still be queued again with an
empty message queue, on an emptiness test that went stale, but each such
insertion is paid for by a message: `Frame.load` is what a worker in a round
can still insert, and messages, queue and loads together never grow
(`Pays`). They bound the pops that are left: `drain_terminates`.
-/

namespace XianNet

open Interleaving

variable {σ : Shared} {C : State → Label → Prop} {s s' : State} {p : Nat → Int}

/-- The step starts no `SendMessage`. -/
def NoSend (s : State) (l : Label) : Prop :=
  ∀ r ∈ l.frame.step s.shared l.choice, ∀ f ∈ r.2, Frame.isSend f = false

instance (s : State) (l : Label) : Decidable (NoSend s l) :=
  inferInstanceAs (Decidable (∀ r ∈ l.frame.step s.shared l.choice, _))

def messages (σ : Shared) : Nat :=
  ∑ r ∈ Finset.range σ.allocated, (σ.services r).messageQueue.length

/-- The services whose flag is set. -/
def flagged (σ : Shared) : List ServiceRef :=
  (List.range σ.allocated).filter fun r => (σ.services r).isInGlobalQueue

/-- The worker popped a service and has not finished `CheckAndPutGlobal`. -/
def Frame.midRound : Frame → Bool
  | .worker _ .popFront | .worker _ (.block _) => false
  | .worker _ _ => true
  | _ => false

def Op.isPopGlobal : Op → Bool
  | .popGlobal _ => true
  | _ => false

/-- What the worker can still insert without popping a message. -/
def Frame.load (σ : Shared) : Frame → Nat
  | .worker _ (.processMessages r i) =>
    if i = 0 ∨ (σ.services r).messageQueue = [] then 0 else 1
  | .worker _ (.checkExisting r) | .worker _ (.checkEmpty r) =>
    if (σ.services r).messageQueue = [] then 0 else 1
  | .worker _ (.checkAndPush _) => 1
  | _ => 0

theorem load_le (σ : Shared) (f : Frame) : f.load σ ≤ f.midRound.toNat := by
  cases f with
  | worker w pc =>
    cases pc with
    | processMessages | checkExisting | checkEmpty =>
      simp only [Frame.load]
      split
      · exact Nat.zero_le _
      · exact Nat.le_refl 1
    | checkAndPush => exact Nat.le_refl 1
    | _ => exact Nat.zero_le _
  | _ => exact Nat.zero_le _

/-- The messages, the queue and the load of the step do not grow, and a pop
makes them less. -/
structure Pays (σ : Shared) (f : Frame) (op : Op) (fs : List Frame) : Prop where
  empty : ∀ r, (σ.services r).messageQueue = [] → ((σ.apply op).services r).messageQueue = []
  pays : op.isPopGlobal.toNat + messages (σ.apply op) + (σ.apply op).globalServiceQueue.length +
      weigh (Frame.load (σ.apply op)) (fs : Multiset Frame) ≤
    messages σ + σ.globalServiceQueue.length + f.load σ

theorem load_apply (h : ∀ r, (σ.services r).messageQueue = [] → (σ'.services r).messageQueue = [])
    (f : Frame) : f.load σ' ≤ f.load σ := by
  cases f with
  | worker w pc =>
    cases pc with
    | processMessages r i =>
      simp only [Frame.load]
      split
      · exact Nat.zero_le _
      · rename_i hne; rw [if_neg fun hor => hne (hor.imp_right (h r))]
    | checkExisting r | checkEmpty r =>
      simp only [Frame.load]
      split
      · exact Nat.zero_le _
      · rename_i hne; rw [if_neg fun hnil => hne (h r hnil)]
    | _ => exact Nat.le_refl _
  | _ => exact Nat.le_refl _

theorem messages_congr (ha : σ'.allocated = σ.allocated)
    (h : ∀ r, (σ'.services r).messageQueue = (σ.services r).messageQueue) :
    messages σ' = messages σ := by
  simp only [messages, ha, h]

theorem messages_popMessage (hr : r < σ.allocated) (hq : (σ.services r).messageQueue = m :: queue) :
    messages (σ.apply (.popMessage r m)) + 1 = messages σ := by
  have hmem := Finset.mem_range.mpr hr
  have hrest : ∀ r' ∈ (Finset.range σ.allocated).erase r,
      ((σ.apply (.popMessage r m)).services r').messageQueue.length =
        (σ.services r').messageQueue.length := fun r' hr' => by
    rw [messageQueue_popMessage, if_neg (Finset.ne_of_mem_erase hr')]
  have hself : ((σ.apply (.popMessage r m)).services r).messageQueue.length + 1 =
      (σ.services r).messageQueue.length := by
    rw [messageQueue_popMessage, if_pos rfl, hq]; rfl
  calc messages (σ.apply (.popMessage r m)) + 1
      = ((σ.apply (.popMessage r m)).services r).messageQueue.length +
          ∑ r' ∈ (Finset.range σ.allocated).erase r,
            ((σ.apply (.popMessage r m)).services r').messageQueue.length + 1 :=
        congrArg (· + 1) (Finset.add_sum_erase _
          (fun r' => ((σ.apply (.popMessage r m)).services r').messageQueue.length) hmem).symm
    _ = (σ.services r).messageQueue.length +
          ∑ r' ∈ (Finset.range σ.allocated).erase r, (σ.services r').messageQueue.length := by
        rw [Finset.sum_congr rfl hrest, ← hself, Nat.add_right_comm]
    _ = messages σ :=
        Finset.add_sum_erase _ (fun r' => (σ.services r').messageQueue.length) hmem

/-- A service not created yet has no messages. -/
theorem messages_other (hr : RefsOk σ F) (hs : SameScheduling σ (σ.apply op)) :
    messages (σ.apply op) = messages σ := by
  cases op with
  | newService service =>
    have hlast : ((σ.apply (.newService service)).services σ.allocated).messageQueue.length = 0 := by
      rw [hs.messages, hr.fresh _ (Nat.le_refl _)]; rfl
    calc messages (σ.apply (.newService service))
        = ∑ r ∈ Finset.range σ.allocated,
            ((σ.apply (.newService service)).services r).messageQueue.length := by
          rw [messages, show (σ.apply (.newService service)).allocated = σ.allocated + 1 from rfl,
            Finset.sum_range_succ, hlast, Nat.add_zero]
      _ = messages σ := by simp only [hs.messages, messages]
  | _ => exact messages_congr rfl hs.messages

-- ---------------------------------------------------------------------------
-- Every step
-- ---------------------------------------------------------------------------

theorem Pays.still {fs : List Frame} (hop : op.isPopGlobal = false)
    (hq : (σ.apply op).globalServiceQueue.length ≤ σ.globalServiceQueue.length)
    (ha : (σ.apply op).allocated = σ.allocated)
    (hm : ∀ r, ((σ.apply op).services r).messageQueue = (σ.services r).messageQueue)
    (hfs : weigh (Frame.load σ) (fs : Multiset Frame) ≤ f.load σ) : Pays σ f op fs := by
  refine ⟨fun r hnil => by rw [hm, hnil], ?_⟩
  have hle : weigh (Frame.load (σ.apply op)) (fs : Multiset Frame) ≤
      weigh (Frame.load σ) (fs : Multiset Frame) :=
    weigh_le fun g _ => load_apply (fun r hnil => by rw [hm, hnil]) g
  rw [hop, messages_congr ha hm, Bool.toNat_false]
  omega

theorem pays_worker (hw : 1 ≤ w.processingNum) (hr : RefsOk σ (.worker w pc ::ₘ R))
    (h : pc.step σ w = some (op, fs)) : Pays σ (.worker w pc) op fs := by
  cases WorkerPc.step_cases h with
  | @pop r queue hq =>
    refine ⟨fun _ hnil => hnil, ?_⟩
    rw [globalServiceQueue_popGlobal, hq]
    simp only [Op.isPopGlobal, Bool.toNat_true, List.tail_cons, List.length_cons]
    have hm : messages (σ.apply (.popGlobal r)) = messages σ := messages_congr rfl fun _ => rfl
    rw [hm]
    simp [Frame.load]
    omega
  | clearFlag =>
    exact .still rfl (Nat.le_refl _) rfl (messageQueue_clearFlag σ _) (by simp [Frame.load])
  | popNoMessage _ hq =>
    exact .still rfl (Nat.le_refl _) rfl (fun _ => rfl) (by simp [Frame.load, hq])
  | @popMessage r m messages i _ hq =>
    have hlt : r < σ.allocated :=
      hr.frames _ (Multiset.mem_cons_self _ _) r (List.mem_singleton_self r)
    have hsum := messages_popMessage hlt hq
    refine ⟨?_, ?_⟩
    · intro r' hnil
      rw [messageQueue_popMessage]
      split
      · rename_i heq; rw [← heq, hnil]; rfl
      · exact hnil
    · have hload :
          Frame.load (σ.apply (.popMessage r m)) (.worker w (.processMessages r (i + 1))) ≤ 1 :=
        (load_le _ _).trans (Bool.toNat_le _)
      simp only [Op.isPopGlobal, Bool.toNat_false, globalServiceQueue_popMessage, weigh_coe_cons,
        weigh_coe_nil, Frame.load] at hload ⊢
      omega
  | @processed r i hi =>
    have h0 : i ≠ 0 := by rintro rfl; omega
    exact .still rfl (Nat.le_refl _) rfl (fun _ => rfl) (by simp [Frame.load, h0])
  | notEmpty hq => exact .still rfl (Nat.le_refl _) rfl (fun _ => rfl) (by simp [Frame.load, hq])
  | won | lost =>
    exact .still rfl (Nat.le_refl _) rfl (messageQueue_raiseFlag σ _) (by simp [Frame.load])
  | @push r =>
    refine ⟨fun _ hnil => hnil, ?_⟩
    have hm : messages (σ.apply (.pushGlobal r)) = messages σ := messages_congr rfl fun _ => rfl
    rw [hm, globalServiceQueue_pushGlobal, List.length_append]
    simp [Op.isPopGlobal, Frame.load]
    omega
  | @block p op next hp =>
    have hop := hp.isSleep
    refine .still ?_ (by rw [globalServiceQueue_sleep hop]) ?_
      (fun r => by rw [services_sleep hop]) ?_
    · cases hp <;> rfl
    · cases hp <;> rfl
    · cases next <;> simp [Frame.load]
  | _ => exact .still rfl (Nat.le_refl _) rfl (fun _ => rfl) (by simp [Frame.load])

theorem pays_step (hw : ∀ w pc, f = .worker w pc → 1 ≤ w.processingNum) (hr : RefsOk σ (f ::ₘ R))
    (hf : f.isSend = false) (h : Frame.step σ f c = some (op, fs)) : Pays σ f op fs := by
  cases f with
  | worker w pc => exact pays_worker (hw w pc rfl) hr h
  | send pc => cases hf
  | _ =>
    have ho := step_other rfl h
    have hs := ho.same hr
    refine ⟨fun r hnil => by rw [hs.messages, hnil], ?_⟩
    have hop : op.isPopGlobal = false := by
      have hout := ho.outside
      cases op <;> first | rfl | cases hout
    have hfs : weigh (Frame.load (σ.apply op)) (fs : Multiset Frame) = 0 := by
      refine weigh_eq_zero ?_
      intro g hg
      have hcall := ho.calls g hg
      cases g with
      | worker => cases hcall
      | _ => rfl
    rw [hop, messages_other hr hs, hs.queue, hfs]
    simp [Frame.load]

def potential (s : State) : Nat :=
  messages s.shared + s.shared.globalServiceQueue.length + weigh (Frame.load s.shared) s.frames

theorem potential_step (hp : ∀ i < n, 1 ≤ p i) (hr : system.Reach C (initial n p k) s)
    (hsend : ∀ f ∈ s.frames, f.isSend = false) (h : system.Step s l s') :
    l.op.isPopGlobal.toNat + potential s' ≤ potential s := by
  obtain ⟨fs, R, hm, hF, hF', hsh⟩ := h.frames
  have hmem : l.frame ∈ s.frames := hF ▸ Multiset.mem_cons_self _ _
  have hpay : Pays s.shared l.frame l.op fs := by
    refine pays_step (R := R) ?_ (hF ▸ Reach.refsOk hr) (hsend _ hmem) hm
    intro w pc hf
    have hw := (Reach.sleepOk hr).worker (hf ▸ hmem)
    exact hw.2 ▸ hp _ hw.1
  have hrest : weigh (Frame.load (s.shared.apply l.op)) R ≤ weigh (Frame.load s.shared) R :=
    weigh_le fun g _ => load_apply hpay.empty g
  have hpays := hpay.pays
  rw [potential, potential, hF, hF', hsh, weigh_add, weigh_cons]
  change _ + (messages (s.shared.apply l.op) + (s.shared.apply l.op).globalServiceQueue.length +
    (weigh (Frame.load (s.shared.apply l.op)) _ + weigh (Frame.load (s.shared.apply l.op)) R)) ≤ _
  omega

theorem NoSend.frames (h : system.Exec NoSend s tr s') (hs : ∀ f ∈ s.frames, f.isSend = false) :
    ∀ f ∈ s'.frames, f.isSend = false := by
  induction h with
  | refl => exact hs
  | step _ hc hstep ih =>
    obtain ⟨fs, R, hm, hF, hF', -⟩ := hstep.frames
    intro f hf
    rw [hF'] at hf
    rcases Multiset.mem_add.mp hf with hf | hf
    · exact hc _ hm f hf
    · exact ih f (hF ▸ Multiset.mem_cons_of_mem hf)

theorem queue_le_flagged (ht : TokensOk σ F) (hr : RefsOk σ F) :
    σ.globalServiceQueue.length ≤ (flagged σ).length := by
  have hnodup : σ.globalServiceQueue.Nodup := List.nodup_iff_count_le_one.mpr fun r => by
    have hle := (σ.services r).isInGlobalQueue.toNat_le
    have hcount := ht r
    omega
  refine (List.subperm_of_subset hnodup ?_).length_le
  intro r hm
  refine List.mem_filter.mpr ⟨List.mem_range.mpr (hr.queue r hm), ?_⟩
  have hcount := ht r
  have hpos := List.count_pos_iff.mpr hm
  by_contra hflag
  rw [Bool.not_eq_true] at hflag
  rw [hflag, Bool.toNat_false] at hcount
  omega

theorem not_owes (hsend : Frame.isSend f = false) (hround : f.midRound = false) : ¬ f.owes r := by
  cases f with
  | worker w pc =>
    cases pc with
    | popFront | block => exact List.not_mem_nil
    | _ => cases hround
  | send => cases hsend
  | _ => exact id

/-- What is left to pop is bounded, and where it ends nothing is left behind. -/
theorem drain_terminates (hp : ∀ i < n, 1 ≤ p i) (h : system.Reach Any (initial n p k) s)
    (hs : ∀ f ∈ s.frames, f.isSend = false) (hrun : system.Exec NoSend s tr s') :
    tr.countP (·.op.isPopGlobal) ≤
        messages s.shared + (flagged s.shared).length + s.frames.countP (·.midRound) ∧
      (s'.shared.globalServiceQueue = [] → (∀ f ∈ s'.frames, f.midRound = false) →
        (∀ r, (s'.shared.services r).isExisting = false →
          (s'.shared.services r).messageQueue = []) ∧
        ∀ r, (s'.shared.services r).isInGlobalQueue = false) := by
  have hpre : ∀ {tr s₁}, system.Exec NoSend s tr s₁ → system.Reach Any (initial n p k) s₁ :=
    fun hpre => h.exec (hpre.mono fun _ _ _ => trivial)
  refine ⟨?_, ?_⟩
  · have hcount := hrun.countP_le (Ψ := potential) (p := (·.op.isPopGlobal))
      fun pre s₁ l s₂ hs₁ _ hstep => potential_step hp (hpre hs₁) (NoSend.frames hs₁ hs) hstep
    have hqueue := queue_le_flagged (Reach.tokensOk h) (Reach.refsOk h)
    have hload : weigh (Frame.load s.shared) s.frames ≤ s.frames.countP (·.midRound) := by
      rw [← weigh_toNat]
      exact weigh_le fun f _ => load_le s.shared f
    rw [potential, potential] at hcount
    omega
  · intro hq hmid
    have hnone : ∀ f ∈ s'.frames, ∀ r, ¬ f.owes r := fun f hf r =>
      not_owes (NoSend.frames hrun hs f hf) (hmid f hf)
    refine ⟨?_, ?_⟩
    · intro r he
      by_contra hne
      rcases Reach.pending (hpre hrun) r ⟨he, hne⟩ with hm | ⟨f, hf, ho⟩
      · rw [hq] at hm; cases hm
      · exact hnone f hf r ho
    · intro r
      have ht := Reach.tokensOk (hpre hrun) r
      rw [hq, weigh_eq_zero fun f hf => by_contra fun hne => hnone f hf r (owes_of_token hne)] at ht
      cases hflag : (s'.shared.services r).isInGlobalQueue
      · rfl
      · rw [hflag] at ht; cases ht

/-- One message, one round. -/
theorem drain_terminates_round : ∃ s tr s', system.Reach Any (initial 1 (fun i => 1 <<< i) 1) s ∧
    system.Exec NoSend s tr s' ∧
    tr.countP (·.op.isPopGlobal) ≤
      messages s.shared + (flagged s.shared).length + s.frames.countP (·.midRound) ∧
    (s'.shared.services 0).messageQueue = [] := by
  have h : ((system.run Any (initial 1 (fun i => 1 <<< i) 1) (creates 3 ++ sends 3 0 5)).any fun s =>
      (∀ f ∈ s.frames, f.isSend = false) ∧
      (system.run NoSend s (steps 0 8)).any (fun s' =>
        s'.shared.globalServiceQueue = [] ∧ (∀ f ∈ s'.frames, f.midRound = false) ∧
        (s'.shared.services 0).isExisting = false) = true) = true := by decide +kernel
  obtain ⟨s, hs, hsend, hrun⟩ := Machine.exists_of_run h
  obtain ⟨s', ⟨tr, hrun⟩, hq, hmid, he⟩ := Machine.exists_of_run hrun
  have hdrain := drain_terminates (fun i hi => by simp [Nat.lt_one_iff.mp hi]) hs hsend hrun
  exact ⟨s, tr, s', hs, hrun, hdrain.1, (hdrain.2 hq hmid).1 0 he⟩

end XianNet
