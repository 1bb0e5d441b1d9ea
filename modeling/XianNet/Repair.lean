import XianNet.Mailbox
import XianNet.Token
import XianNet.Wakeup

/-!
# Repairing a missed wake-up

The comment in `CheckAndWeakUpWorker` relies on the next send to wake the
workers that a missed wake-up left asleep. `SendMessage` only reaches the test
when it wins the flag swap, so in a stalled system a send wakes somebody
exactly if its target is not queued yet (`send_signals_iff`). A send to the
service that waits does not.
-/

namespace XianNet

open Interleaving

variable {σ : Shared} {C : State → Label → Prop} {s s' : State} {p : Nat → Int}

/-- Only thread `t` moves, inside `SendMessage`. -/
def Solo (t : Nat) (_ : State) (l : Label) : Prop := l.thread = t ∧ l.frame.isSend

/-- The step of thread `t` calls `SendMessage`, from the frames below. -/
def Calls (t : Nat) (target : UInt32) (m : BaseMessage) (s : State) (l : Label) (s₁ : State)
    (rest : List Frame) : Prop :=
  system.Step s l s₁ ∧ l.thread = t ∧ s₁.threads[t]? = some (.send (.find target m) :: rest)

/-- Thread `t` calls `SendMessage` and runs it alone until it returns. -/
def SendsAlone (t : Nat) (target : UInt32) (m : BaseMessage) (s : State) (tr : List Label)
    (s' : State) : Prop :=
  ∃ l s₁ tr' rest, Calls t target m s l s₁ rest ∧ system.Exec (Solo t) s₁ tr' s' ∧ tr = l :: tr' ∧
    s'.threads[t]? = some rest

def Op.isSignal : Op → Bool
  | .signal _ => true
  | _ => false

-- ---------------------------------------------------------------------------
-- SendMessage on its own
-- ---------------------------------------------------------------------------

theorem SendPc.step_next {pc : SendPc} (h : pc.step σ c = some (op, fs)) :
    ∃ next : Option SendPc, fs = next.toList.map .send := by
  cases SendPc.step_cases h with
  | unknown | lost => exact ⟨none, rfl⟩
  | @wakeUp p op next => exact ⟨next.map .wakeUp, by cases next <;> rfl⟩
  | found | pushMessage | won | push => exact ⟨some _, rfl⟩

/-- An invariant of the point `SendMessage` is at, carried until it returns. -/
theorem Solo.induct {P : Shared → Option SendPc → List Label → Prop}
    (h : system.Exec (Solo t) s tr s') (ht : s.threads[t]? = some (.send pc :: rest))
    (hrest : ∀ f ∈ rest, f.isSend = false) (h0 : P s.shared (some pc) [])
    (hstep : ∀ σ pc tr l next, P σ (some pc) tr →
      pc.step σ l.choice = some (l.op, next.toList.map Frame.send) →
      P (σ.apply l.op) next (tr ++ [l])) :
    ∃ next : Option SendPc, s'.threads[t]? = some (next.toList.map .send ++ rest) ∧
      P s'.shared next tr := by
  induction h with
  | refl => exact ⟨some pc, ht, h0⟩
  | @step tr s₁ l s₂ _ hsolo hs ih =>
    obtain ⟨next, hstack, hP⟩ := ih
    obtain ⟨rest', fs, ht', hm, rfl⟩ := Machine.Step.eq hs
    obtain ⟨rfl, hsend⟩ := hsolo
    rw [hstack] at ht'
    have hlt := (List.getElem?_eq_some_iff.mp hstack).1
    cases next with
    | none =>
      rw [hrest l.frame (by rw [show rest = _ from Option.some.inj ht']; simp)] at hsend
      cases hsend
    | some pc' =>
      obtain ⟨hf, rfl⟩ := List.cons.inj (Option.some.inj ht')
      rw [← hf] at hm
      obtain ⟨next, rfl⟩ := SendPc.step_next hm
      exact ⟨next, List.getElem?_set_self hlt, hstep _ _ _ _ _ hP hm⟩

def SendPc.rank : SendPc → Nat
  | .find _ _ => 8
  | .pushMessage _ _ => 7
  | .checkAndPush (.swap _) => 6
  | .checkAndPush (.push _) => 5
  | .wakeUp .testSleeping => 4
  | .wakeUp .readSleepCount => 3
  | .wakeUp (.compareSize _) => 2
  | .wakeUp .signal => 1

theorem SendPc.rank_lt {next : Option SendPc} {pc : SendPc}
    (h : pc.step σ c = some (op, next.toList.map .send)) (hn : pc' ∈ next) :
    pc'.rank < pc.rank := by
  generalize hfs : next.toList.map Frame.send = fs at h
  cases hn
  cases SendPc.step_cases h with
  | wakeUp hp => cases hp <;> cases hfs <;> exact Nat.lt_succ_self _
  | _ => cases hfs <;> exact Nat.lt_succ_self _

/-- No point of `SendMessage` waits for another thread. Only `Signal` looks at
the choice. -/
theorem SendPc.enabled (σ : Shared) (pc : SendPc) : ∃ r, pc.step σ (.waiter 0) = some r := by
  cases pc with
  | find target m =>
    cases hf : σ.serviceMap.find target <;> exact ⟨_, by rw [SendPc.step, hf]⟩
  | pushMessage => exact ⟨_, rfl⟩
  | checkAndPush p =>
    cases p with
    | swap r =>
      cases hflag : (σ.services r).isInGlobalQueue <;>
        exact ⟨_, by simp only [SendPc.step, PushPc.step, hflag]; rfl⟩
    | push => exact ⟨_, rfl⟩
  | wakeUp p =>
    cases p with
    | signal =>
      cases hw : σ.waitSet <;> exact ⟨_, by simp [SendPc.step, WakePc.step, hw]; rfl⟩
    | _ => exact ⟨_, rfl⟩

/-- `SendMessage` returns. -/
theorem SendPc.returns {pc : SendPc} (ht : s.threads[t]? = some (.send pc :: stack)) :
    ∃ tr s', system.Exec (Solo t) s tr s' ∧ s'.threads[t]? = some stack := by
  induction hrank : pc.rank using Nat.strong_induction_on generalizing s pc with
  | _ rank ih =>
    obtain ⟨⟨op, fs⟩, hstep⟩ := SendPc.enabled s.shared pc
    obtain ⟨next, rfl⟩ := SendPc.step_next hstep
    obtain ⟨s₁, hs, -, hstack⟩ := Machine.exists_step (M := system) ht hstep
    have hexec := Machine.Exec.single (C := Solo t) ⟨rfl, rfl⟩ hs
    cases next with
    | none => exact ⟨_, s₁, hexec, hstack⟩
    | some pc' =>
      obtain ⟨tr, s', hrun, hend⟩ := ih _ (hrank ▸ SendPc.rank_lt hstep rfl) hstack rfl
      exact ⟨_, s', hexec.trans hrun, hend⟩

theorem Calls.sendsAlone (h : Calls t target m s l s₁ rest) :
    ∃ tr s', SendsAlone t target m s tr s' := by
  obtain ⟨tr, s', hrun, hend⟩ := SendPc.returns h.2.2
  exact ⟨_, s', l, s₁, tr, rest, h, hrun, rfl, hend⟩

/-- A caller can make the call. -/
theorem calls_of_caller (ht : s.threads[t]? = some (.caller :: rest)) (target : UInt32)
    (m : BaseMessage) : ∃ l s₁, Calls t target m s l s₁ (.caller :: rest) := by
  obtain ⟨s₁, hs, -, hstack⟩ :=
    Machine.exists_step (M := system) (c := .sendMessage target m) ht rfl
  exact ⟨_, s₁, hs, rfl, hstack⟩

/-- The step that calls `SendMessage` finds services as before, and nothing
below the call is in one. -/
theorem step_calls (h : Frame.step σ f c = some (op, .send pc :: gs)) (hf : f.isSend = false) :
    f.isScheduling = false ∧ (σ.apply op).serviceMap = σ.serviceMap ∧
      ∀ g ∈ gs, g.isSend = false := by
  obtain ⟨pc', rfl⟩ | ⟨target, m, rfl, hmake⟩ := send_origin h List.mem_cons_self
  · cases hf
  cases hmake with
  | caller | send => cases h; exact ⟨rfl, rfl, List.forall_mem_singleton.mpr rfl⟩
  | @onAccept fd conn =>
    have h : AcceptPc.step σ (.addEvent fd conn) c = some (op, _) := h
    cases AcceptPc.step_cases h <;> exact ⟨rfl, rfl, nofun⟩
  | @onRW conn e events _ hfind htype =>
    generalize hfs : Frame.send (.find target _) :: gs = fs at h
    have h : SocketPc.step σ (.dispatch (e :: events)) c = some (op, fs) := h
    cases SocketPc.step_cases h with
    | unknown => cases hfs
    | event hfind' =>
      obtain rfl := Option.some.inj (hfind.symm.trans hfind')
      refine ⟨rfl, rfl, ?_⟩
      by_cases hflag : (e.epollIn || e.epollOut) = true
      · rw [onEventFrames, htype, if_pos hflag] at hfs
        cases hfs
        exact List.forall_mem_singleton.mpr rfl
      · rw [onEventFrames, htype, if_neg hflag] at hfs
        cases hfs

/-- What a call in a stalled system starts with, and the rest of it. -/
theorem SendsAlone.call (h : SendsAlone t target m s tr s') (hr : RefsOk s.shared s.frames)
    (hs : ∀ f ∈ s.frames, f.isSend = false) :
    ∃ l s₁ tr' rest, tr = l :: tr' ∧ l.op.isSignal = false ∧ SameScheduling s.shared s₁.shared ∧
      s₁.shared.serviceMap = s.shared.serviceMap ∧ (∀ f ∈ rest, f.isSend = false) ∧
      s₁.threads[t]? = some (.send (.find target m) :: rest) ∧ system.Exec (Solo t) s₁ tr' s' ∧
      s'.threads[t]? = some rest := by
  obtain ⟨l, s₁, tr', rest, ⟨hstep, rfl, ht₁⟩, hrun, rfl, hend⟩ := h
  obtain ⟨rest₀, fs, ht, hm, rfl⟩ := Machine.Step.eq hstep
  have hlt := (List.getElem?_eq_some_iff.mp ht).1
  have hmine : ∀ f ∈ l.frame :: rest₀, f.isSend = false := fun f hf =>
    hs f (State.mem_frames.mpr ⟨_, _, ht, hf⟩)
  have hstack := Option.some.inj ((List.getElem?_set_self hlt).symm.trans ht₁)
  cases fs with
  | nil =>
    have hno := hmine (.send (.find target m)) (List.mem_cons_of_mem _ (by
      rw [show rest₀ = _ from hstack]
      exact List.mem_cons_self))
    cases hno
  | cons g gs =>
    obtain ⟨rfl, rfl⟩ := List.cons.inj hstack
    obtain ⟨hsched, hmap, hgs⟩ := step_calls hm (hmine l.frame List.mem_cons_self)
    have ho := step_other hsched hm
    refine ⟨l, _, tr', _, rfl, ?_, ho.same hr, hmap, ?_, ht₁, hrun, hend⟩
    · have hout := ho.outside
      cases hop : l.op <;> first | rfl | (rw [hop] at hout; cases hout)
    · intro f hf
      rcases List.mem_append.mp hf with hf | hf
      · exact hgs f hf
      · exact hmine f (List.mem_cons_of_mem _ hf)

/-- The two outcomes of a call, by an invariant of its points. -/
theorem SendsAlone.induct {P : Shared → Option SendPc → List Label → Prop}
    (h : SendsAlone t target m s tr s') (hr : RefsOk s.shared s.frames)
    (hs : ∀ f ∈ s.frames, f.isSend = false)
    (h0 : ∀ σ, SameScheduling s.shared σ → σ.serviceMap = s.shared.serviceMap →
      P σ (some (.find target m)) [])
    (hstep : ∀ σ pc tr l next, P σ (some pc) tr →
      pc.step σ l.choice = some (l.op, next.toList.map Frame.send) →
      P (σ.apply l.op) next (tr ++ [l])) :
    ∃ l tr', tr = l :: tr' ∧ l.op.isSignal = false ∧ P s'.shared none tr' := by
  obtain ⟨l, s₁, tr', rest, rfl, hop, hsame, hmap, hrest, ht₁, hrun, hend⟩ := h.call hr hs
  refine ⟨l, tr', rfl, hop, ?_⟩
  obtain ⟨next, hstack, hP⟩ := Solo.induct hrun ht₁ hrest (h0 _ hsame hmap) hstep
  rw [hend] at hstack
  cases next with
  | none => exact hP
  | some pc =>
    have hlen := congrArg List.length (Option.some.inj hstack)
    simp at hlen

-- ---------------------------------------------------------------------------
-- A stalled system
-- ---------------------------------------------------------------------------

theorem Stalled.worker (hs : Stalled n s) (hi : SleepOk n p s.shared s.frames)
    (hf : .worker w pc ∈ s.frames) : pc = .block .waiting :=
  hi.waiting w pc hf (hs.2.1 w.id (hi.worker hf).1)

/-- Nobody is between flag and queue, so the flag says who is queued. -/
theorem Stalled.flag (hs : Stalled n s) (hi : SleepOk n p s.shared s.frames)
    (ht : TokensOk s.shared s.frames) (r : ServiceRef) :
    (s.shared.services r).isInGlobalQueue = true ↔ r ∈ s.shared.globalServiceQueue := by
  have hnone : weigh (Frame.token r) s.frames = 0 := by
    refine weigh_eq_zero ?_
    intro f hf
    cases f with
    | worker w pc => rw [hs.worker hi hf]; rfl
    | send pc => cases hs.2.2 _ hf
    | _ => rfl
  have hr := ht r
  rw [hnone, Nat.add_zero] at hr
  rw [← List.count_pos_iff, hr]
  cases (s.shared.services r).isInGlobalQueue <;> decide

/-- Before the swap, on the way to service `r`. -/
def SendPc.towards (σ : Shared) (r : ServiceRef) : SendPc → Prop
  | .find target _ => σ.serviceMap.find target = some r
  | .pushMessage r' _ | .checkAndPush (.swap r') => r' = r
  | _ => False

/-- After a swap that was won, with every worker asleep. -/
def SendPc.alerting : SendPc → Prop
  | .checkAndPush (.push _) => True
  | .wakeUp (.compareSize d) => d ≤ 0
  | .wakeUp _ => True
  | _ => False

/-- The call to a target that is not queued: it will signal, or has. -/
def Alert (n : Nat) (r : ServiceRef) (σ : Shared) : Option SendPc → List Label → Prop
  | none, tr => ∃ l ∈ tr, l.op.isSignal
  | some pc, _ => σ.sleepCount = n ∧ σ.threadSize = n ∧
      (pc.towards σ r ∧ (σ.services r).isInGlobalQueue = false ∨ pc.alerting)

/-- The call to a queued target: it stops at the swap. -/
def Mute (r : ServiceRef) (σ : Shared) (next : Option SendPc) (tr : List Label) : Prop :=
  (∀ l ∈ tr, l.op.isSignal = false) ∧
    ∀ pc ∈ next, pc.towards σ r ∧ (σ.services r).isInGlobalQueue = true

theorem Alert.step (hn : 0 < n) (hP : Alert n r σ (some pc) tr)
    (h : pc.step σ c = some (op, next.toList.map .send)) (hl : l.op = op) :
    Alert n r (σ.apply op) next (tr ++ [l]) := by
  generalize hfs : next.toList.map Frame.send = fs at h
  obtain ⟨hcount, hsize, hwhere⟩ := hP
  cases SendPc.step_cases h with
  | unknown hnone =>
    obtain ⟨htow, -⟩ | hal := hwhere
    · rw [SendPc.towards, hnone] at htow; cases htow
    · cases hal
  | found hsome =>
    obtain ⟨htow, hflag⟩ | hal := hwhere
    · rw [SendPc.towards, hsome] at htow
      cases next <;> cases hfs
      exact ⟨hcount, hsize, .inl ⟨Option.some.inj htow, hflag⟩⟩
    · cases hal
  | pushMessage =>
    obtain ⟨htow, hflag⟩ | hal := hwhere
    · cases next <;> cases hfs
      exact ⟨hcount, hsize, .inl ⟨htow, (flag_pushMessage ..).trans hflag⟩⟩
    · cases hal
  | won => cases next <;> cases hfs; exact ⟨hcount, hsize, .inr trivial⟩
  | lost hset =>
    obtain ⟨rfl, hflag⟩ | hal := hwhere
    · rw [hset] at hflag; cases hflag
    · cases hal
  | push => cases next <;> cases hfs; exact ⟨hcount, hsize, .inr trivial⟩
  | wakeUp hp =>
    cases hp with
    | awake h0 => omega
    | asleep | short => cases next <;> cases hfs; exact ⟨hcount, hsize, .inr trivial⟩
    | read =>
      cases next <;> cases hfs
      exact ⟨hcount, hsize, .inr (by simp [SendPc.alerting, hcount, hsize])⟩
    | enough hlt =>
      obtain ⟨htow, -⟩ | hal := hwhere
      · cases htow
      · exact absurd hal (Int.not_le.mpr ((Int.natCast_nonneg _).trans_lt hlt))
    | woken | nobody =>
      cases next <;> cases hfs
      exact ⟨l, List.mem_append_right _ (List.mem_singleton_self l), by rw [hl]; rfl⟩

theorem Mute.step (hP : Mute r σ (some pc) tr)
    (h : pc.step σ c = some (op, next.toList.map .send)) (hl : l.op = op) :
    Mute r (σ.apply op) next (tr ++ [l]) := by
  generalize hfs : next.toList.map Frame.send = fs at h
  obtain ⟨hsil, hP⟩ := hP
  obtain ⟨htow, hflag⟩ := hP pc rfl
  have hmore (hop : op.isSignal = false) : ∀ l' ∈ tr ++ [l], l'.op.isSignal = false := fun l' hm =>
    (List.mem_append.mp hm).elim (hsil l') fun hm => by rw [List.mem_singleton.mp hm, hl, hop]
  cases SendPc.step_cases h with
  | unknown => cases next <;> cases hfs; exact ⟨hmore rfl, fun pc' h' => nomatch h'⟩
  | found hsome =>
    rw [SendPc.towards, hsome] at htow
    cases next <;> cases hfs
    exact ⟨hmore rfl, fun pc' h' => Option.some.inj h' ▸ ⟨Option.some.inj htow, hflag⟩⟩
  | pushMessage =>
    cases next <;> cases hfs
    exact ⟨hmore rfl, fun pc' h' => Option.some.inj h' ▸ ⟨htow, (flag_pushMessage ..).trans hflag⟩⟩
  | won hclear => cases htow; rw [hclear] at hflag; cases hflag
  | lost => cases next <;> cases hfs; exact ⟨hmore rfl, fun pc' h' => nomatch h'⟩
  | push | wakeUp => cases htow

theorem SendsAlone.signals (hn : 0 < n) (hi : SleepOk n p s.shared s.frames)
    (hr : RefsOk s.shared s.frames) (hs : Stalled n s)
    (hT : s.shared.serviceMap.find target = some r)
    (hflag : (s.shared.services r).isInGlobalQueue = false)
    (h : SendsAlone t target m s tr s') : ∃ l ∈ tr, l.op.isSignal := by
  have hcount := hi.sleepCount_eq fun w pc hf => hs.worker hi hf
  have hstart : ∀ σ, SameScheduling s.shared σ → σ.serviceMap = s.shared.serviceMap →
      Alert n r σ (some (.find target m)) [] := by
    intro σ hsame hmap
    refine ⟨hsame.sleepCount.trans hcount, hsame.threadSize.trans hi.threadSize, .inl ⟨?_, ?_⟩⟩
    · rw [SendPc.towards, hmap, hT]
    · rw [hsame.flag, hflag]
  obtain ⟨l, tr', rfl, -, l', hl', hsig⟩ :=
    h.induct hr hs.2.2 hstart fun σ pc tr l next hP hm => hP.step hn hm rfl
  exact ⟨l', List.mem_cons_of_mem _ hl', hsig⟩

theorem SendsAlone.silent (hr : RefsOk s.shared s.frames) (hs : Stalled n s)
    (hT : s.shared.serviceMap.find target = some r)
    (hflag : (s.shared.services r).isInGlobalQueue = true)
    (h : SendsAlone t target m s tr s') : ∀ l ∈ tr, l.op.isSignal = false := by
  have hstart : ∀ σ, SameScheduling s.shared σ → σ.serviceMap = s.shared.serviceMap →
      Mute r σ (some (.find target m)) [] := by
    intro σ hsame hmap
    refine ⟨fun l hl => absurd hl List.not_mem_nil, fun pc hpc => ?_⟩
    cases hpc
    rw [SendPc.towards, hmap, hsame.flag]
    exact ⟨hT, hflag⟩
  obtain ⟨l, tr', rfl, hop, hsil, -⟩ :=
    h.induct hr hs.2.2 hstart fun σ pc tr l next hP hm => hP.step hm rfl
  exact List.forall_mem_cons.mpr ⟨hop, hsil⟩

/-- In a stalled system, a call from wherever signals exactly if the target is
not queued. -/
theorem send_signals_iff (hn : 0 < n) (h : system.Reach Any (initial n p k) s) (hs : Stalled n s)
    (hT : s.shared.serviceMap.find target = some r) (hcall : Calls t target m s l s₁ rest) :
    (∃ tr s', SendsAlone t target m s tr s') ∧
      ((∀ tr s', SendsAlone t target m s tr s' → ∃ l ∈ tr, l.op.isSignal) ↔
        r ∉ s.shared.globalServiceQueue) := by
  have hi := Reach.sleepOk h
  have hr := Reach.refsOk h
  have hflag := hs.flag hi (Reach.tokensOk h) r
  obtain ⟨tr, s', hrun⟩ := hcall.sendsAlone
  refine ⟨⟨tr, s', hrun⟩, ?_, ?_⟩
  · intro hall hq
    obtain ⟨l, hl, hsig⟩ := hall tr s' hrun
    rw [hrun.silent hr hs hT (hflag.mpr hq) l hl] at hsig
    cases hsig
  · intro hq tr s' hrun
    exact hrun.signals hn hi hr hs hT (Bool.eq_false_iff.mpr fun hset => hq (hflag.mp hset))

/-- A send to the queued service of a stalled system wakes nobody. -/
theorem unrepaired : ∃ s tr s', system.Reach Any (initial 1 (fun i => 1 <<< i) 1) s ∧ Stalled 1 s ∧
    s.shared.serviceMap.find 0 = some 0 ∧ SendsAlone 3 0 (scriptMessage {} "") s tr s' ∧
    ∀ l ∈ tr, l.op.isSignal = false := by
  have h : ((system.run Any (initial 1 (fun i => 1 <<< i) 1) missedWakeUp).any fun s =>
      Stalled 1 s ∧ s.threads[3]? = some [.caller] ∧ s.shared.serviceMap.find 0 = some 0 ∧
      (s.shared.services 0).isInGlobalQueue = true) = true := by decide +kernel
  obtain ⟨s, hs, hstall, ht, hT, hflag⟩ := Machine.exists_of_run h
  obtain ⟨l, s₁, hcall⟩ := calls_of_caller ht 0 (scriptMessage {} "")
  obtain ⟨tr, s', hrun⟩ := hcall.sendsAlone
  exact ⟨s, tr, s', hs, hstall, hT, hrun, hrun.silent (Reach.refsOk hs) hstall hT hflag⟩

/-- A second service, which is not queued, repairs it. -/
theorem send_signals_iff_other : ∃ s tr s', system.Reach Any (initial 1 (fun i => 1 <<< i) 1) s ∧
    Stalled 1 s ∧ SendsAlone 3 1 (scriptMessage {} "") s tr s' ∧ ∃ l ∈ tr, l.op.isSignal := by
  have h : ((system.run Any (initial 1 (fun i => 1 <<< i) 1)
      (missedWakeUp ++ creates 3)).any fun s =>
      Stalled 1 s ∧ s.threads[3]? = some [.caller] ∧ s.shared.serviceMap.find 1 = some 1 ∧
      1 ∉ s.shared.globalServiceQueue) = true := by decide +kernel
  obtain ⟨s, hs, hstall, ht, hT, hq⟩ := Machine.exists_of_run h
  obtain ⟨l, s₁, hcall⟩ := calls_of_caller ht 1 (scriptMessage {} "")
  obtain ⟨⟨tr, s', hrun⟩, hiff⟩ := send_signals_iff (by decide) hs hstall hT hcall
  exact ⟨s, tr, s', hs, hstall, hrun, hiff.mpr hq tr s' hrun⟩

end XianNet
