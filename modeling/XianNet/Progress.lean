import XianNet.Interleaving.Progress
import XianNet.Mailbox
import XianNet.Native
import XianNet.Repair

/-!
# To the end of a call

How many steps are left of what a thread is in, who has the mutex of
`BlockWorker`, and how a thread that runs alone comes back to its loop, or falls
asleep, when scripts return and the kernel gives what it has
(`Alone.finishes`).
-/

namespace XianNet

open Interleaving

variable {σ : Shared} {C : State → Label → Prop} {s s' : State} {p : Nat → Int} {f g : Frame}

-- ---------------------------------------------------------------------------
-- Ranks
-- ---------------------------------------------------------------------------

def BlockPc.rank : BlockPc → Nat
  | .lock => 6
  | .increment => 5
  | .wait => 4
  | .waiting => 3
  | .decrement => 2
  | .unlock => 1

/-- A message has rank 5, and every round of the loop may take one. -/
def WorkerPc.rank (w : ServiceWorker) : WorkerPc → Nat
  | .popFront => 0
  | .clearFlag _ => 6 + 6 * w.processingNum.toNat
  | .processMessages _ i => 5 + 6 * (w.processingNum - i).toNat
  | .checkExisting _ => 4
  | .checkEmpty _ => 3
  | .checkAndPush (.swap _) => 2
  | .checkAndPush (.push _) => 1
  | .block p => p.rank

def KillPc.rank : KillPc → Nat
  | .find _ => 6
  | .setExisting _ | .erase _ => 1

def AcceptPc.rank : AcceptPc → Nat
  | .accept _ => 11
  | .addConnection _ _ => 10
  | .addEvent _ _ => 9

def ListenPc.rank : ListenPc → Nat
  | .socket _ _ => 6
  | .bind _ _ _ => 5
  | .listen _ _ => 4
  | .addConnection _ _ => 3
  | .addEvent _ => 2
  | .ret _ => 1

def ClosePc.rank : ClosePc → Nat
  | .erase _ => 3
  | .close _ _ => 2
  | .removeEvent _ => 1

/-- How many steps are left of what a frame is in, when scripts return and
clients send nothing more. A loop of a thread that waits for work has none. -/
def Frame.rank : Frame → Nat
  | .caller | .network | .socket .epollWait => 0
  | .worker w pc => pc.rank w
  | .socket (.dispatch events) => 1 + 12 * events.length
  | .send pc => pc.rank
  | .addService _ | .script _ _ | .gateway _ | .modifyEvent _ _ => 1
  | .onInitialization _ | .onExit _ => 3
  | .kill pc => pc.rank
  | .handler _ _ => 5
  | .processServiceMessage _ _ | .processSocketAcceptMessage _ _ | .processSocketRwMessage _ _ => 4
  | .executeJsFunction _ _ _ _ => 2
  | .accept pc => pc.rank
  | .listen pc => pc.rank
  | .close pc => pc.rank

/-- What is there to read. -/
def Kernel.pending (k : Kernel) (fd : Int32) : Nat :=
  (k.descriptors fd).elim 0 fun x => (k.files x).received.length

/-- What the call returns when the kernel gives what it has. -/
def GatewayPc.offered (k : Kernel) : GatewayPc → Int
  | .read fd _ => (min 64 (k.pending fd) : Nat)
  | .write _ content => (content.toUTF8.toList.length : Nat)

/-- What is left to read in a loop of `Read`, which goes on at the same rank. -/
def Frame.size (σ : Shared) : Frame → Nat
  | .gateway (.read fd _) => σ.kernel.pending fd
  | _ => 0

theorem SendPc.rank_pos (pc : SendPc) : 0 < pc.rank := by
  cases pc with
  | checkAndPush p => cases p <;> exact Nat.succ_pos _
  | wakeUp p => cases p <;> exact Nat.succ_pos _
  | _ => exact Nat.succ_pos _

theorem SendPc.rank_le (pc : SendPc) : pc.rank ≤ 8 := by
  cases pc with
  | checkAndPush p => cases p <;> simp [SendPc.rank]
  | wakeUp p => cases p <;> simp [SendPc.rank]
  | _ => simp [SendPc.rank]

-- ---------------------------------------------------------------------------
-- Calls without a loop
-- ---------------------------------------------------------------------------

/-- `SendMessage`, `OnAccept`, `Listen`, `CloseConnection` and `ModifyEvent`. -/
def Frame.straight : Frame → Bool
  | .send _ | .accept _ | .listen _ | .close _ | .modifyEvent _ _ => true
  | _ => false

theorem straight_pos (hf : f.straight) : 0 < f.rank := by
  cases f with
  | send pc => exact pc.rank_pos
  | accept pc | listen pc | close pc => cases pc <;> exact Nat.succ_pos _
  | modifyEvent => exact Nat.one_pos
  | _ => cases hf

/-- A step of such a call is its last, or goes on with less to do. -/
theorem straight_step (hf : f.straight) (h : Frame.step σ f c = some r) :
    GoesOn (Frame.straight ·) Frame.rank f r := by
  obtain ⟨op, fs⟩ := r
  cases f with
  | send pc =>
    obtain ⟨next, rfl⟩ := SendPc.step_next h
    cases next with
    | none => exact .inl rfl
    | some pc' => exact .inr ⟨_, rfl, rfl, SendPc.rank_lt h rfl⟩
  | accept pc =>
    cases AcceptPc.step_cases h with
    | _ => exact .inr ⟨_, rfl, rfl, Nat.lt_succ_self _⟩
  | listen pc =>
    cases ListenPc.step_cases h with
    | ret => exact .inl rfl
    | _ => exact .inr ⟨_, rfl, rfl, by simp [Frame.rank, ListenPc.rank]⟩
  | close pc =>
    cases ClosePc.step_cases (Option.some.inj h) with
    | close | removeNone | remove => exact .inl rfl
    | _ => exact .inr ⟨_, rfl, rfl, Nat.lt_succ_self _⟩
  | modifyEvent => cases modifyEvent_cases (c := c) h <;> exact .inl rfl
  | _ => cases hf

/-- A system call fails only if it cannot do otherwise, a read takes what is
there, and a write takes all. -/
structure Granted (s : State) (l : Label) : Prop where
  failed : l.choice = .failed → ∀ c r, Frame.step s.shared l.frame c = some r → c = .failed
  gateway : ∀ pc, l.frame = .gateway pc → l.choice = .result (pc.offered s.shared.kernel)

/-- A call whose choices are one that fails and ones that succeed. -/
theorem exists_succeeding (hfail : Frame.step σ f .failed = some r)
    (hnative : ∀ c r, Frame.step σ f c = some r → c.isForeign = false) :
    ∃ c r, c.isForeign = false ∧ Frame.step σ f c = some r ∧
      (c = .failed → ∀ c' r', Frame.step σ f c' = some r' → c' = .failed) := by
  by_cases hok : ∃ c r, Frame.step σ f c = some r ∧ c ≠ .failed
  · obtain ⟨c, r, hstep, hne⟩ := hok
    exact ⟨c, r, hnative c r hstep, hstep, fun heq => absurd heq hne⟩
  · refine ⟨.failed, r, rfl, hfail, fun _ c' r' hstep => ?_⟩
    by_contra hne
    exact hok ⟨c', r', hstep, hne⟩

/-- A system call may always fail, so none of these waits for anybody. -/
theorem straight_enabled (hf : f.straight) :
    ∃ c r, c.isForeign = false ∧ Frame.step σ f c = some r ∧
      (c = .failed → ∀ c' r', Frame.step σ f c' = some r' → c' = .failed) := by
  cases f with
  | send pc =>
    obtain ⟨r, hstep⟩ := pc.enabled σ
    exact ⟨.waiter 0, r, rfl, hstep, nofun⟩
  | accept pc =>
    cases pc with
    | accept => exact exists_succeeding rfl fun c r h => by cases c <;> first | rfl | cases h
    | addConnection => exact ⟨.go, _, rfl, rfl, nofun⟩
    | addEvent => exact exists_succeeding rfl fun c r h => by cases c <;> first | rfl | cases h
  | listen pc =>
    cases pc with
    | addConnection | ret => exact ⟨.go, _, rfl, rfl, nofun⟩
    | _ => exact exists_succeeding rfl fun c r h => by cases c <;> first | rfl | cases h
  | close | modifyEvent => exact ⟨.go, _, rfl, rfl, nofun⟩
  | _ => cases hf

theorem straight_rank_le (hf : f.straight) : f.rank ≤ 11 := by
  cases f with
  | send pc => exact pc.rank_le.trans (by decide)
  | accept pc | listen pc | close pc =>
    cases pc <;> simp [Frame.rank, AcceptPc.rank, ListenPc.rank, ClosePc.rank]
  | modifyEvent => simp [Frame.rank]
  | _ => cases hf

-- ---------------------------------------------------------------------------
-- Stacks
-- ---------------------------------------------------------------------------

/-- The thread functions, at the bottom of the stacks. -/
def Frame.isLoop : Frame → Bool
  | .caller | .network | .worker _ _ | .socket _ => true
  | _ => false

/-- The loop of thread `t`. A worker calls somebody only from `ProcessMessages`. -/
inductive LoopOf (n : Nat) (p : Nat → Int) (t : Nat) : List Frame → Frame → Prop
  | worker : t < n → LoopOf n p t [] (.worker ⟨t, p t⟩ pc)
  | processing : t < n → LoopOf n p t calls (.worker ⟨t, p t⟩ (.processMessages r i))
  | socket : t = n → LoopOf n p t calls (.socket pc)
  | network : n < t → LoopOf n p t calls .network
  | caller : n < t → LoopOf n p t calls .caller

structure StackOk (n : Nat) (p : Nat → Int) (t : Nat) (stack : List Frame) : Prop where
  loop : ∃ calls loop, stack = calls ++ [loop] ∧ (∀ f ∈ calls, f.isLoop = false) ∧
    LoopOf n p t calls loop

theorem calls_of_call (h : Frame.step σ f c = some (op, fs)) (hf : f.isLoop = false)
    (hg : g ∈ fs) : g.isLoop = false := by
  have hcall := (routine_step h g hg).1
  cases g with
  | caller | network | worker | socket =>
    cases f <;> simp [Frame.isLoop, Frame.routine, Routine.calls] at hf hcall
  | _ => rfl

theorem LoopOf.step (hi : LoopOf n p t [] f) (h : Frame.step σ f c = some (op, fs)) :
    StackOk n p t fs := by
  have hworker : ∀ pc, t < n → f = .worker ⟨t, p t⟩ pc → StackOk n p t fs := by
    rintro pc ht rfl
    cases WorkerPc.step_cases h with
    | popMessage => exact ⟨[_], _, rfl, List.forall_mem_singleton.mpr rfl, .processing ht⟩
    | _ => exact ⟨[], _, rfl, nofun, .worker ht⟩
  cases hi with
  | worker ht => exact hworker _ ht rfl
  | processing ht => exact hworker _ ht rfl
  | socket ht =>
    cases SocketPc.step_cases h with
    | event =>
      refine ⟨_, _, rfl, ?_, .socket ht⟩
      intro g hg
      rcases onEventFrames_cases hg with ⟨-, -, rfl⟩ | ⟨-, rfl⟩ <;> rfl
    | _ => exact ⟨[], _, rfl, nofun, .socket ht⟩
  | network ht => cases networkStep_cases h <;> exact ⟨[], _, rfl, nofun, .network ht⟩
  | caller ht =>
    cases callerStep_cases h with
    | newScriptService | newGatewayService =>
      exact ⟨_, _, rfl, by simp [newScriptServiceFrames, newServiceFrames, Frame.isLoop],
        .caller ht⟩
    | _ => exact ⟨[_], _, rfl, List.forall_mem_singleton.mpr rfl, .caller ht⟩

theorem LoopOf.of_cons (hi : LoopOf n p t (f :: calls) loop) : LoopOf n p t calls' loop := by
  cases hi with
  | processing ht => exact .processing ht
  | socket ht => exact .socket ht
  | network ht => exact .network ht
  | caller ht => exact .caller ht

theorem StackOk.step (hi : StackOk n p t (f :: rest)) (h : Frame.step σ f c = some (op, fs)) :
    StackOk n p t (fs ++ rest) := by
  obtain ⟨calls, loop, hstack, hcalls, hloop⟩ := hi.loop
  cases calls with
  | nil =>
    cases hstack
    simpa using hloop.step h
  | cons g calls =>
    cases hstack
    refine ⟨fs ++ calls, loop, (List.append_assoc ..).symm, ?_, hloop.of_cons⟩
    intro g hg
    rcases List.mem_append.mp hg with hg | hg
    · exact calls_of_call h (hcalls f List.mem_cons_self) hg
    · exact hcalls g (List.mem_cons_of_mem _ hg)

theorem initial_stack (ht : (initial n p k).threads[t]? = some stack) :
    ∃ loop, stack = [loop] ∧ LoopOf n p t [] loop := by
  have hlen : (startServiceWorker n p).length = n := by simp [startServiceWorker]
  simp only [initial] at ht
  rcases Nat.lt_trichotomy t n with hlt | rfl | hgt
  · rw [List.getElem?_append_left (by rwa [hlen])] at ht
    simp only [startServiceWorker, List.getElem?_map, List.getElem?_range hlt, Option.map_some] at ht
    cases ht
    exact ⟨_, rfl, .worker hlt⟩
  · rw [List.getElem?_append_right (Nat.le_of_eq hlen), hlen, Nat.sub_self] at ht
    cases ht
    exact ⟨_, rfl, .socket rfl⟩
  · rw [List.getElem?_append_right (by rw [hlen]; exact Nat.le_of_lt hgt), hlen] at ht
    obtain ⟨j, hj⟩ := Nat.exists_eq_succ_of_ne_zero (Nat.sub_ne_zero_of_lt hgt)
    rw [hj, List.getElem?_cons_succ] at ht
    rcases List.mem_cons.mp (List.mem_of_getElem? ht) with rfl | hmem
    · exact ⟨_, rfl, .network hgt⟩
    · exact ⟨_, List.eq_of_mem_replicate hmem, .caller hgt⟩

theorem Reach.stackOk (h : system.Reach C (initial n p k) s) (ht : s.threads[t]? = some stack) :
    StackOk n p t stack := by
  obtain ⟨tr, h⟩ := h
  refine h.stacks (I := fun _ _ t stack => StackOk n p t stack) ?_ ?_ ?_ t stack ht
  · intro t stack ht
    obtain ⟨loop, rfl, hloop⟩ := initial_stack ht
    exact ⟨[], loop, rfl, nofun, hloop⟩
  · intro tr s l fs rest _ _ _ hm hi
    exact hi.step hm
  · intro tr s l s' t stack _ _ _ _ _ hi
    exact hi

-- ---------------------------------------------------------------------------
-- The mutex of BlockWorker
-- ---------------------------------------------------------------------------

/-- The worker has `mutex_lock_`. -/
def Frame.critical : Frame → Bool
  | .worker _ (.block .increment) | .worker _ (.block .wait) | .worker _ (.block .decrement)
  | .worker _ (.block .unlock) => true
  | _ => false

def MutexOk (σ : Shared) (F : Multiset Frame) : Prop :=
  weigh (fun f => (Frame.critical f).toNat) F = σ.mutexLocked.toNat

def Op.isMutex : Op → Bool
  | .lockMutex | .unlockMutex | .joinWaitSet _ => true
  | _ => false

theorem mutexLocked_apply {op : Op} (h : op.isMutex = false) :
    (σ.apply op).mutexLocked = σ.mutexLocked := by
  cases op <;> first | rfl | cases h

/-- A step that is not one of `BlockWorker`. -/
theorem MutexOk.other (hi : MutexOk σ (f ::ₘ R)) (hf : f.critical = false)
    (hfs : ∀ g ∈ fs, Frame.critical g = false) (hop : op.isMutex = false) :
    MutexOk (σ.apply op) ((fs : Multiset Frame) + R) := by
  have hnone : weigh (fun g => (Frame.critical g).toNat) (fs : Multiset Frame) = 0 :=
    weigh_eq_zero fun g hg => by rw [hfs g hg]; rfl
  rw [MutexOk, weigh_cons, hf] at hi
  rw [MutexOk, weigh_add, hnone, mutexLocked_apply hop]
  exact hi

theorem MutexOk.block {b : BlockPc} (hi : MutexOk σ (.worker w (.block b) ::ₘ R))
    (h : BlockStep σ w.id b op next) : MutexOk (σ.apply op)
      (([.worker w (next.elim .popFront .block)] : List Frame) + R : Multiset Frame) := by
  have hle := σ.mutexLocked.toNat_le
  rw [MutexOk, weigh_cons] at hi
  rw [MutexOk, weigh_add, weigh_coe_cons, weigh_coe_nil]
  cases h with
  | lock hfree | waiting _ hfree =>
    rw [hfree] at hi
    simp only [Frame.critical, Shared.apply, Option.elim_some, Bool.toNat_true,
      Bool.toNat_false] at hi ⊢
    omega
  | wait | unlock =>
    simp only [Frame.critical, Shared.apply, Option.elim_some, Option.elim_none, Bool.toNat_true,
      Bool.toNat_false] at hi ⊢
    omega
  | increment | decrement => exact hi

theorem critical_of_isCall (h : Frame.isCall g) : g.critical = false := by
  cases g with
  | worker => cases h
  | _ => rfl

theorem MutexOk.step (hi : MutexOk σ (f ::ₘ R)) (h : Frame.step σ f c = some (op, fs)) :
    MutexOk (σ.apply op) ((fs : Multiset Frame) + R) := by
  cases f with
  | worker w pc =>
    cases WorkerPc.step_cases h with
    | block hb => exact hi.block hb
    | popMessage => exact hi.other rfl (List.forall_mem_cons.mpr ⟨rfl, by simp [Frame.critical]⟩) rfl
    | _ => exact hi.other rfl (List.forall_mem_singleton.mpr rfl) rfl
  | send pc =>
    cases SendPc.step_cases h with
    | wakeUp hw =>
      refine hi.other rfl (fun g hg => ?_) (by cases hw <;> rfl)
      obtain ⟨p', -, rfl⟩ := List.mem_map.mp hg
      rfl
    | unknown | lost => exact hi.other rfl nofun rfl
    | _ => exact hi.other rfl (List.forall_mem_singleton.mpr rfl) rfl
  | _ =>
    have ho := step_other rfl h
    refine hi.other rfl (fun g hg => critical_of_isCall (ho.calls g hg)) ?_
    have hout := ho.outside
    cases op <;> first | rfl | cases hout

/-- One worker at most is between `Lock` and `Unlock`, and only while it is locked. -/
theorem Reach.mutexOk (h : system.Reach C (initial n p k) s) : MutexOk s.shared s.frames := by
  refine h.invariant (I := MutexOk) ?_ fun s l fs R _ _ _ hm hi => hi.step hm
  rw [MutexOk, weigh_eq_zero]
  · rfl
  · intro f hf
    rcases mem_initial_frames hf with ⟨i, -, rfl⟩ | rfl | rfl | rfl <;> rfl

/-- A signal took the worker out of the wait set, and it has not got the mutex. -/
def Frame.woken (σ : Shared) : Frame → Bool
  | .worker w (.block .waiting) => w.id ∉ σ.waitSet
  | _ => false

/-- Between `sleep_count_` and `pthread_cond_wait`, on the way in or out. -/
def Frame.switching : Frame → Bool
  | .worker _ (.block .wait) | .worker _ (.block .decrement) => true
  | _ => false

/-- The worker is in the wait set. -/
def Frame.waits (σ : Shared) (f : Frame) : Option ServiceWorker :=
  f.worker?.filter (·.id ∈ σ.waitSet)

theorem SleepOk.card_waits (hi : SleepOk n p σ F) :
    (F.filterMap (Frame.waits σ)).card = σ.waitSet.length := by
  have hfilter : (Multiset.range n).filter (· ∈ σ.waitSet) = σ.waitSet := by
    refine (Multiset.Nodup.ext ((Multiset.nodup_range n).filter _)
      (Multiset.coe_nodup.mpr hi.waiters.1)).mpr fun i => ?_
    rw [Multiset.mem_filter, Multiset.mem_range]
    exact ⟨fun h => h.2, fun h => ⟨hi.waiters.2 i h, h⟩⟩
  have hwaits : F.filterMap (Frame.waits σ) =
      (F.filterMap Frame.worker?).filter (·.id ∈ σ.waitSet) :=
    (Multiset.filter_filterMap _ _ _).symm
  rw [hwaits, hi.workers, Multiset.filter_map, Multiset.card_map]
  exact (congrArg Multiset.card hfilter).trans (Multiset.coe_card _)

theorem SleepOk.sleeping (hi : SleepOk n p σ F) (hf : f ∈ F) :
    f.sleeping.toNat =
      (f.waits σ).isSome.toNat + (f.woken σ).toNat + f.switching.toNat := by
  cases f with
  | worker w pc =>
    by_cases hw : w.id ∈ σ.waitSet
    · rw [hi.waiting w pc hf hw]
      simp [Frame.sleeping, Frame.waits, Frame.worker?, Frame.woken, Frame.switching, hw]
    · have hnone : (Frame.worker w pc).waits σ = none := by simp [Frame.waits, Frame.worker?, hw]
      rw [hnone]
      cases pc with
      | block b => cases b <;> simp [Frame.sleeping, Frame.woken, Frame.switching, hw]
      | _ => rfl
  | _ => rfl

theorem critical_of_switching (h : f.switching) : f.critical := by
  cases f with
  | worker w pc =>
    cases pc with
    | block b => cases b <;> first | rfl | cases h
    | _ => cases h
  | _ => cases h

/-- Read without the lock, `sleep_count_` is never less than the number of
workers that a signal can wake. It is more by those that were woken and are not
back yet, and by one that is just going in or out. -/
theorem sleep_count_bounds (h : system.Reach C (initial n p k) s) :
    (∃ d ≤ 1, s.shared.sleepCount =
      (s.shared.waitSet.length + s.frames.countP (Frame.woken s.shared ·) + d : Nat)) ∧
      s.shared.sleepCount ≤ n ∧ s.frames.countP (Frame.critical ·) = s.shared.mutexLocked.toNat := by
  have hi := Reach.sleepOk h
  have hmutex := Reach.mutexOk h
  rw [MutexOk, weigh_toNat] at hmutex
  refine ⟨⟨s.frames.countP (Frame.switching ·), ?_, ?_⟩, ?_, hmutex⟩
  · calc s.frames.countP (Frame.switching ·)
      _ = weigh (fun f => f.switching.toNat) s.frames := (weigh_toNat _ _).symm
      _ ≤ weigh (fun f => f.critical.toNat) s.frames :=
        weigh_le fun f _ => Bool.toNat_le_toNat critical_of_switching
      _ ≤ 1 := by rw [weigh_toNat, hmutex]; exact Bool.toNat_le _
  · rw [hi.sleepCount, weigh_congr fun f hf => hi.sleeping hf, weigh_fun_add, weigh_fun_add,
      ← card_filterMap, hi.card_waits, weigh_toNat, weigh_toNat]
  · have hle : weigh (fun f => (Frame.sleeping f).toNat) s.frames ≤
        weigh (fun f => (Frame.worker? f).isSome.toNat) s.frames :=
      weigh_le fun f _ => by cases f <;> first | exact Bool.toNat_le _ | exact Nat.le_refl _
    rw [← card_filterMap, hi.workers, Multiset.card_map, Multiset.card_range] at hle
    rw [hi.sleepCount]
    exact_mod_cast hle

/-- One of two workers was woken, the other sleeps. -/
theorem sleep_count_bounds_woken : ∃ s, system.Reach Any (initial 2 (fun i => 1 <<< i) 1) s ∧
    s.shared.waitSet = [1] ∧ s.frames.countP (Frame.woken s.shared ·) = 1 ∧
    (∃ d ≤ 1, s.shared.sleepCount = (1 + 1 + d : Nat)) ∧ s.shared.sleepCount ≤ 2 := by
  have h : ((system.run Any (initial 2 (fun i => 1 <<< i) 1)
      (steps 0 4 ++ steps 1 4 ++ creates 4 ++ sends 4 0 7 ++ [(4, .waiter 1)])).any fun s =>
        s.shared.waitSet = [1] ∧ s.frames.countP (Frame.woken s.shared ·) = 1) = true := by
    decide +kernel
  obtain ⟨s, hs, hw, hwoken⟩ := Machine.exists_of_run h
  obtain ⟨hcount, hle, -⟩ := sleep_count_bounds hs
  rw [hw, hwoken] at hcount
  exact ⟨s, hs, hw, hwoken, hcount, hle⟩

-- ---------------------------------------------------------------------------
-- To the end
-- ---------------------------------------------------------------------------

/-- Where a thread ends up that nobody gives work: at its loop, or asleep. -/
def Frame.calm : Frame → Bool
  | .caller | .network | .socket .epollWait | .worker _ .popFront
  | .worker _ (.block .waiting) => true
  | _ => false

theorem exists_lower_worker {w : ServiceWorker} (hf : (Frame.worker w pc).calm = false)
    (hmutex : pc = .block .lock → σ.mutexLocked = false) :
    ∃ op fs, WorkerPc.step σ w pc = some (op, fs) ∧
      weigh Frame.rank (fs : Multiset Frame) < (Frame.worker w pc).rank := by
  have hone : ∀ op pc', WorkerPc.step σ w pc = some (op, [.worker w pc']) →
      pc'.rank w < pc.rank w → ∃ op fs, WorkerPc.step σ w pc = some (op, fs) ∧
        weigh Frame.rank (fs : Multiset Frame) < (Frame.worker w pc).rank := by
    intro op pc' hstep hlt
    exact ⟨op, _, hstep, by simpa [Frame.rank] using hlt⟩
  cases pc with
  | popFront => cases hf
  | clearFlag r => exact hone _ _ rfl (by simp [WorkerPc.rank])
  | processMessages r i =>
    by_cases hi : (i : Int) < w.processingNum
    · cases hq : (σ.services r).messageQueue with
      | nil =>
        refine hone .silent (.processMessages r (i + 1)) ?_ ?_
        · simp [WorkerPc.step, hi, hq, SpinlockQueue.popFront]
        · simp only [WorkerPc.rank]
          omega
      | cons m messages =>
        refine ⟨.popMessage r m, [.handler r m, .worker w (.processMessages r (i + 1))], ?_, ?_⟩
        · simp [WorkerPc.step, hi, hq, SpinlockQueue.popFront]
        · simp only [weigh_coe_cons, weigh_coe_nil, Frame.rank, WorkerPc.rank]
          omega
    · refine hone .silent (.checkExisting r) (by simp [WorkerPc.step, hi]) ?_
      simp only [WorkerPc.rank]
      omega
  | checkExisting r =>
    refine hone _ _ rfl ?_
    split <;> simp [WorkerPc.rank]
  | checkEmpty r =>
    refine hone _ _ rfl ?_
    split <;> simp [WorkerPc.rank]
  | checkAndPush p =>
    cases p with
    | swap r =>
      cases hflag : (σ.services r).isInGlobalQueue with
      | false =>
        exact hone (.raiseFlag r) (.checkAndPush (.push r))
          (by simp [WorkerPc.step, PushPc.step, hflag]) (Nat.lt_succ_self _)
      | true =>
        exact hone (.raiseFlag r) .popFront (by simp [WorkerPc.step, PushPc.step, hflag])
          (by simp [WorkerPc.rank])
    | push => exact hone _ _ rfl Nat.one_pos
  | block b =>
    cases b with
    | lock =>
      exact hone .lockMutex (.block .increment) (by simp [WorkerPc.step, BlockPc.step, hmutex rfl])
        (Nat.lt_succ_self _)
    | waiting => cases hf
    | unlock => exact hone _ _ rfl Nat.one_pos
    | _ => exact hone _ _ rfl (Nat.lt_succ_self _)

theorem rank_onEventFrames_le : weigh Frame.rank (onEventFrames c e : Multiset Frame) ≤ 11 := by
  unfold onEventFrames
  split <;> split <;> simp [Frame.rank, AcceptPc.rank, SendPc.rank]

theorem rank_socketRwFrames_le : weigh Frame.rank (socketRwFrames m : Multiset Frame) ≤ 3 := by
  unfold socketRwFrames
  split <;> split <;> simp [Frame.rank]

theorem Kernel.pending_read (hd : σ.kernel.descriptors fd = some x) (n : Nat) :
    (σ.apply (.read x n)).kernel.pending fd = σ.kernel.pending fd - n := by
  have hd' : (σ.apply (.read x n)).kernel.descriptors fd = some x := hd
  rw [Kernel.pending, hd', Kernel.pending, hd]
  simp [Shared.apply, Shared.updateFile, Kernel.files_updateFile]

/-- `Read` reads on until nothing is left, and `Write` writes. -/
theorem gateway_lowers (σ : Shared) (pc : GatewayPc) :
    ∃ op fs, Frame.step σ (.gateway pc) (.result (pc.offered σ.kernel)) = some (op, fs) ∧
      system.Lowers Frame.rank Frame.size σ (.gateway pc) op fs := by
  cases pc with
  | read fd result =>
    cases hd : σ.kernel.descriptors fd with
    | none => exact ⟨.silent, [], by simp [Frame.step, GatewayPc.step, hd], .inl Nat.one_pos⟩
    | some x =>
      have hpending : σ.kernel.pending fd = (σ.kernel.files x).received.length := by
        simp [Kernel.pending, hd]
      rcases Nat.eq_zero_or_pos (σ.kernel.pending fd) with h0 | hpos
      · refine ⟨.silent, [], ?_, .inl Nat.one_pos⟩
        simp [Frame.step, GatewayPc.step, GatewayPc.offered, hd, h0]
      · obtain ⟨n, hn⟩ : ∃ n, n = min 64 (σ.kernel.pending fd) := ⟨_, rfl⟩
        refine ⟨.read x n, [.gateway (.read fd (result ++ (σ.kernel.files x).received.take n))], ?_,
          .inr ⟨_, rfl, rfl, ?_⟩⟩
        · have hpos : ¬ (n : Int) ≤ 0 := by omega
          have hle : (n : Int) ≤ 64 ∧ (n : Int) ≤ (σ.kernel.files x).received.length := by omega
          simp only [Frame.step, GatewayPc.step, GatewayPc.offered, hd, ← hn, if_neg hpos,
            if_pos hle, Int.toNat_natCast]
        · show (σ.apply (.read x n)).kernel.pending fd < σ.kernel.pending fd
          rw [Kernel.pending_read hd]
          omega
  | write fd content =>
    cases hd : σ.kernel.descriptors fd with
    | none => exact ⟨.silent, [], by simp [Frame.step, GatewayPc.step, hd], .inl Nat.one_pos⟩
    | some x =>
      refine ⟨.write x content.toUTF8.toList, [], ?_, .inl Nat.one_pos⟩
      simp [Frame.step, GatewayPc.step, GatewayPc.offered, hd]

theorem exists_lower_dispatch (σ : Shared) (events : List EpollEvent) :
    ∃ op fs, Frame.step σ (.socket (.dispatch events)) .go = some (op, fs) ∧
      weigh Frame.rank (fs : Multiset Frame) < Frame.rank (.socket (.dispatch events)) := by
  cases events with
  | nil => exact ⟨_, _, rfl, by simp [Frame.rank]⟩
  | cons e events =>
    cases hc : σ.connectionMap.find e.fd.toUInt32 with
    | none =>
      exact ⟨.silent, [.socket (.dispatch events)], by simp [Frame.step, SocketPc.step, hc],
        by simp [Frame.rank]⟩
    | some c =>
      refine ⟨.silent, onEventFrames c e ++ [.socket (.dispatch events)],
        by simp [Frame.step, SocketPc.step, hc], ?_⟩
      have hle := rank_onEventFrames_le (c := c) (e := e)
      simp only [← Multiset.coe_add, weigh_add, weigh_coe_cons, weigh_coe_nil, Frame.rank,
        List.length_cons]
      omega

theorem exists_lower_kill (σ : Shared) (pc : KillPc) :
    ∃ op fs, Frame.step σ (.kill pc) .go = some (op, fs) ∧
      weigh Frame.rank (fs : Multiset Frame) < Frame.rank (.kill pc) := by
  cases pc with
  | find id =>
    cases hfind : σ.serviceMap.find id with
    | none =>
      exact ⟨.silent, [], by simp [Frame.step, KillPc.step, hfind],
        by simp [Frame.rank, KillPc.rank]⟩
    | some r =>
      exact ⟨.silent, [.onExit r, .kill (.setExisting r), .kill (.erase id)],
        by simp [Frame.step, KillPc.step, hfind], by simp [Frame.rank, KillPc.rank]⟩
  | setExisting | erase => exact ⟨_, _, rfl, Nat.one_pos⟩

/-- Outside the straight calls and the gateway nothing depends on a result of a
system call. -/
theorem exists_lower_other (hf : f.calm = false) (hstraight : ¬ f.straight)
    (hgateway : ¬ ∃ pc, f = .gateway pc)
    (hmutex : ∀ w, f = .worker w (.block .lock) → σ.mutexLocked = false)
    (hm : ∀ m, f.message = some m → m.type = m.body.type) :
    ∃ c op fs, c.isForeign = false ∧ c ≠ .failed ∧ Frame.step σ f c = some (op, fs) ∧
      weigh Frame.rank (fs : Multiset Frame) < f.rank := by
  cases f with
  | caller | network => cases hf
  | send | accept | listen | close | modifyEvent => exact absurd rfl hstraight
  | gateway pc => exact absurd ⟨pc, rfl⟩ hgateway
  | worker w pc =>
    obtain ⟨op, fs, hstep, hlt⟩ := exists_lower_worker hf fun hpc => hmutex w (by rw [hpc])
    exact ⟨.go, op, fs, rfl, by decide, hstep, hlt⟩
  | socket pc =>
    cases pc with
    | epollWait => cases hf
    | dispatch events =>
      obtain ⟨op, fs, hstep, hlt⟩ := exists_lower_dispatch σ events
      exact ⟨.go, op, fs, rfl, by decide, hstep, hlt⟩
  | kill pc =>
    obtain ⟨op, fs, hstep, hlt⟩ := exists_lower_kill σ pc
    exact ⟨.go, op, fs, rfl, by decide, hstep, hlt⟩
  | addService => exact ⟨.go, _, _, rfl, by decide, rfl, Nat.one_pos⟩
  | onInitialization r | onExit r =>
    refine ⟨.go, _, _, rfl, by decide, rfl, ?_⟩
    simp only [onInitializationFrames, onExitFrames]
    split <;> simp [Frame.rank]
  | handler r m =>
    refine ⟨.go, .silent, [m.body.method r], rfl, by decide, ?_, ?_⟩
    · simp [Frame.step, handlerFrames_eq (hm m rfl)]
    · cases m.body <;> simp [MessageBody.method, Frame.rank]
  | processServiceMessage r m =>
    refine ⟨.go, _, _, rfl, by decide, rfl, ?_⟩
    unfold processServiceMessageFrames
    split <;> simp [Frame.rank]
  | processSocketAcceptMessage => exact ⟨.go, _, _, rfl, by decide, rfl, Nat.succ_pos _⟩
  | processSocketRwMessage r m =>
    refine ⟨.go, _, _, rfl, by decide, rfl, ?_⟩
    unfold processSocketRwMessageFrames
    split
    · simp [Frame.rank]
    · exact Nat.lt_succ_of_le rank_socketRwFrames_le
  | executeJsFunction r name content phase =>
    refine ⟨.go, _, _, rfl, by decide, rfl, ?_⟩
    split <;> simp [Frame.rank]
  | script r phase =>
    by_cases hphase : phase = .construct
    · subst hphase
      exact ⟨.jsExports [], _, _, rfl, by decide, rfl, Nat.one_pos⟩
    · exact ⟨.jsReturn, .silent, [], rfl, by decide, if_neg hphase, Nat.one_pos⟩

/-- Where nothing keeps a frame from going on, some step leads on. -/
theorem exists_lower (hf : f.calm = false)
    (hmutex : ∀ w, f = .worker w (.block .lock) → σ.mutexLocked = false)
    (hm : ∀ m, f.message = some m → m.type = m.body.type) :
    ∃ c op fs, c.isForeign = false ∧ Frame.step σ f c = some (op, fs) ∧
      (c = .failed → ∀ c' r', Frame.step σ f c' = some r' → c' = .failed) ∧
      (∀ pc, f = .gateway pc → c = .result (pc.offered σ.kernel)) ∧
      system.Lowers Frame.rank Frame.size σ f op fs := by
  by_cases hstraight : f.straight
  · obtain ⟨c, ⟨op, fs⟩, hc, hstep, hfail⟩ := straight_enabled (σ := σ) hstraight
    refine ⟨c, op, fs, hc, hstep, hfail, ?_, .inl ?_⟩
    · rintro pc rfl
      cases hstraight
    · rcases straight_step hstraight hstep with rfl | ⟨g, rfl, -, hlt⟩
      · exact straight_pos hstraight
      · simpa using hlt
  by_cases hgateway : ∃ pc, f = .gateway pc
  · obtain ⟨pc, rfl⟩ := hgateway
    obtain ⟨op, fs, hstep, hlt⟩ := gateway_lowers σ pc
    refine ⟨_, op, fs, rfl, hstep, ?_, ?_, hlt⟩
    · intro heq
      cases heq
    · intro pc' heq
      cases heq
      rfl
  obtain ⟨c, op, fs, hc, hne, hstep, hlt⟩ := exists_lower_other hf hstraight hgateway hmutex hm
  exact ⟨c, op, fs, hc, hstep, fun heq => absurd heq hne,
    fun pc heq => absurd ⟨pc, heq⟩ hgateway, .inl hlt⟩

-- ---------------------------------------------------------------------------
-- One thread alone
-- ---------------------------------------------------------------------------

/-- A caller passes messages whose tag names their class. -/
def Typed (_ : State) (l : Label) : Prop :=
  l.frame = .caller → ∀ m ∈ l.choice.sent, m.type = m.body.type

instance (s : State) (l : Label) : Decidable (Typed s l) :=
  inferInstanceAs (Decidable (_ → _))

theorem Makes.type (h : Makes σ f c m)
    (hc : f = .caller → ∀ m ∈ c.sent, m.type = m.body.type) : m.type = m.body.type := by
  cases h with
  | caller => exact hc rfl m rfl
  | send => rfl
  | onAccept => rfl
  | onRW => rfl

theorem Reach.typed (h : system.Reach Typed (initial n p k) s) :
    Carried (fun m => m.type = m.body.type) s.shared s.frames := by
  refine h.invariant (I := Carried fun m => m.type = m.body.type) .initial ?_
  intro s l fs R hr hc hF hm hi
  exact hi.step (hF ▸ Reach.refsOk hr) hm fun m hmake => hmake.type hc

/-- The step leads on, with all that the kernel has to give, and is no call that
the program does not make. -/
structure Lowers (s : State) (l : Label) : Prop where
  calm : l.frame.calm = false
  native : l.choice.isForeign = false
  granted : Granted s l
  lowers : ∀ r ∈ l.frame.step s.shared l.choice,
    system.Lowers Frame.rank Frame.size s.shared l.frame r.1 r.2

/-- Thread `t` waits for work, or sleeps. -/
def Calm (t : Nat) (s : State) : Prop := ∃ f, s.threads[t]? = some [f] ∧ f.calm

theorem isLoop_of_calm (h : f.calm) : f.isLoop := by
  cases f <;> first | rfl | cases h

theorem StackOk.top (hi : StackOk n p t (f :: rest)) (hf : f.isLoop) : rest = [] := by
  obtain ⟨calls, loop, hstack, hcalls, -⟩ := hi.loop
  cases calls with
  | nil => cases hstack; rfl
  | cons g calls =>
    cases hstack
    rw [hcalls f List.mem_cons_self] at hf
    cases hf

/-- In no thread but `t` a worker has the mutex. -/
def FreeBut (t : Nat) (s : State) : Prop :=
  ∀ t' stack, t' ≠ t → s.threads[t']? = some stack → ∀ f ∈ stack, f.critical = false

theorem Reach.unlocked (h : system.Reach C (initial n p k) s) (hfree : FreeBut t s)
    (ht : s.threads[t]? = some [f]) (hf : f.critical = false) : s.shared.mutexLocked = false := by
  have hnone : weigh (fun f => (Frame.critical f).toNat) s.frames = 0 := by
    refine weigh_eq_zero ?_
    intro g hg
    obtain ⟨t', stack, ht', hg⟩ := State.mem_frames.mp hg
    by_cases heq : t' = t
    · subst heq
      rw [ht] at ht'
      cases ht'
      rw [List.mem_singleton.mp hg, hf]
      rfl
    · rw [hfree t' stack heq ht' g hg]
      rfl
  have hi := Reach.mutexOk h
  rw [MutexOk, hnone] at hi
  cases hlocked : s.shared.mutexLocked
  · rfl
  · rw [hlocked] at hi; cases hi

/-- Thread `t` can run alone. -/
structure Alone (n : Nat) (p : Nat → Int) (k t : Nat) (s : State) : Prop where
  reached : system.Reach Typed (initial n p k) s
  free : FreeBut t s
  stack : ∃ stack, s.threads[t]? = some stack

theorem Alone.step (hi : Alone n p k t s) (hcalm : ¬ Calm t s) :
    ∃ f rest c op fs, s.threads[t]? = some (f :: rest) ∧
      system.step s.shared f c = some (op, fs) ∧
      system.Lowers Frame.rank Frame.size s.shared f op fs ∧ Lowers s ⟨t, f, c, op⟩ ∧
      ∀ s', system.Step s ⟨t, f, c, op⟩ s' →
        s'.threads[t]? = some (fs ++ rest) → Alone n p k t s' := by
  obtain ⟨hr, hfree, stack, ht⟩ := hi
  have hstack := Reach.stackOk hr ht
  obtain ⟨f, rest, rfl⟩ : ∃ f rest, stack = f :: rest := by
    obtain ⟨calls, loop, rfl, -⟩ := hstack.loop
    cases calls <;> exact ⟨_, _, rfl⟩
  have hf : f.calm = false := by
    by_contra hf
    rw [Bool.not_eq_false] at hf
    rw [hstack.top (isLoop_of_calm hf)] at ht
    exact hcalm ⟨f, ht, hf⟩
  have hmem : f ∈ s.frames := State.mem_frames.mpr ⟨t, _, ht, List.mem_cons_self⟩
  have hmutex : ∀ w, f = .worker w (.block .lock) → s.shared.mutexLocked = false := by
    rintro w rfl
    rw [hstack.top rfl] at ht
    exact Reach.unlocked hr hfree ht rfl
  obtain ⟨c, op, fs, hc, hm, hfail, hgateway, hlt⟩ :=
    exists_lower hf hmutex ((Reach.typed hr).frames f hmem)
  refine ⟨f, rest, c, op, fs, ht, hm, hlt, ⟨hf, hc, ⟨hfail, hgateway⟩, ?_⟩, ?_⟩
  · intro r hr
    cases Option.some.inj (hm.symm.trans hr)
    exact hlt
  · intro s' hs ht'
    have htyped : Typed s ⟨t, f, c, op⟩ := by
      rintro rfl
      cases hf
    refine ⟨hr.exec (.single htyped hs), ?_, _, ht'⟩
    intro t' stack' hne hget
    exact hfree t' stack' hne (by rwa [hs.stays (Ne.symm hne)] at hget)

theorem Alone.finishes (hi : Alone n p k t s) :
    ∃ tr s', system.Exec (fun s l => Lowers s l ∧ l.thread = t) s tr s' ∧ Calm t s' := by
  obtain ⟨tr, s', hrun, -, hcalm⟩ : ∃ tr s', system.Exec (fun s l => Lowers s l ∧ l.thread = t) s tr
      s' ∧ Alone n p k t s' ∧ Calm t s' :=
    system.exists_alone Frame.rank Frame.size hi fun _ => Alone.step
  exact ⟨tr, s', hrun, hcalm⟩

end XianNet
