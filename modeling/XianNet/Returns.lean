import XianNet.Locking
import XianNet.Progress

/-!
# Calls that return

The calls of the public interface that only touch containers and make system
calls return within a few steps of their thread, and wait for nothing but the
lock of a container that another thread is in (`calls_return`). What else a
thread can be in, down to its loop, it can finish alone, once no other thread
has such a lock or the mutex of `BlockWorker` (`thread_finishes`). Log
statements, which take the lock of the logger, are left out.
-/

namespace XianNet

open Interleaving

variable {σ : Shared} {p : Nat → Int} {f : Frame} {m : ContainerMethod}
variable {s s' : Interleaving.State LockedShared ContainerFrame}
variable {tr : List (Interleaving.Label ContainerFrame Choice ContainerOp)}
variable {C : Interleaving.State LockedShared ContainerFrame →
  Interleaving.Label ContainerFrame Choice ContainerOp → Prop}

-- ---------------------------------------------------------------------------
-- Methods of the calls
-- ---------------------------------------------------------------------------

theorem RwlockUnorderedMap.findBody_ends {P : ρ → Prop} (map : α → RwlockUnorderedMap κ β) (key : κ)
    {k : Option β → ρ} (hk : ∀ found, P (k found)) : (findBody map key k).Ends P 3 := by
  refine .read fun x => ?_
  split
  · exact .read fun y => .act fun _ => hk _
  · exact .act fun _ => hk none

theorem setCurrentAndGetPreviousBody_ends {P : ρ → Prop} {k : Bool → ρ} (hk : ∀ b, P (k b)) :
    (setCurrentAndGetPreviousBody k).Ends P 3 :=
  .read fun _ => .act fun _ => hk _

theorem SendPc.method_ends {pc : SendPc} (h : pc.method = some m) :
    m.body.Ends (GoesOn (Frame.straight ·) Frame.rank (.send pc)) 3 := by
  cases pc with
  | find target msg =>
    cases h
    have hfound : ∀ found : Option ServiceRef, GoesOn (Frame.straight ·) Frame.rank
        (.send (.find target msg))
        (Op.silent, (found.map fun r => Frame.send (.pushMessage r msg)).toList) := by
      rintro (_ | r)
      · exact .inl rfl
      · exact .inr ⟨_, rfl, rfl, Nat.lt_succ_self _⟩
    exact RwlockUnorderedMap.findBody_ends _ _ hfound
  | pushMessage => cases h; exact .act fun _ => .inr ⟨_, rfl, rfl, Nat.lt_succ_self _⟩
  | checkAndPush q =>
    cases h
    cases q with
    | swap r =>
      refine setCurrentAndGetPreviousBody_ends fun previous => ?_
      cases previous with
      | true => exact .inl rfl
      | false => exact .inr ⟨_, rfl, rfl, Nat.lt_succ_self _⟩
    | push => exact .act fun _ => .inr ⟨_, rfl, rfl, Nat.lt_succ_self _⟩
  | wakeUp => cases h

theorem straight_method (hf : f.straight) (h : f.method = some m) :
    m.body.Ends (GoesOn (Frame.straight ·) Frame.rank f) 3 := by
  cases f with
  | send pc => exact SendPc.method_ends h
  | accept pc =>
    cases pc with
    | addConnection => cases h; exact .act fun _ => .inr ⟨_, rfl, rfl, Nat.lt_succ_self _⟩
    | _ => cases h
  | listen pc =>
    cases pc with
    | addConnection => cases h; exact .act fun _ => .inr ⟨_, rfl, rfl, Nat.lt_succ_self _⟩
    | _ => cases h
  | close pc =>
    cases pc with
    | erase => cases h; exact .act fun _ => .inr ⟨_, rfl, rfl, Nat.lt_succ_self _⟩
    | _ => cases h
  | modifyEvent => cases h
  | _ => cases hf

theorem containerGuards_counts : containerGuards.Counts (Frame.straight ·) Frame.rank 3 where
  pos _ := straight_pos
  step _ _ _ _ hf h := straight_step hf h
  method _ _ _ hf h := straight_method hf h

-- ---------------------------------------------------------------------------
-- Calls return
-- ---------------------------------------------------------------------------

/-- Whatever such a call is at, it can step or stands before a lock. -/
theorem within_enabled {g : ContainerFrame} (s : LockedShared)
    (h : g.Within (Frame.straight ·) Frame.rank 3 j) :
    (∃ c, (lockedSystem.step s g c).isSome) ∨
      ∃ i mode, g.waits = some (i, mode) ∧ (s.locks i).available mode = false := by
  cases h with
  | @plain f hf =>
    cases hm : f.method with
    | some m =>
      have hm : containerGuards.method f .go = some m := hm
      exact .inl ⟨.go, by simp [lockedSystem, Guards.locked, Guards.step, hm]⟩
    | none =>
      obtain ⟨c, r, -, hr, -⟩ := straight_enabled (σ := s.base) hf
      have hm : containerGuards.method f c = none := hm
      have hr : system.step s.base f c = some r := hr
      exact .inl ⟨c, by simp [lockedSystem, Guards.locked, Guards.step, hm, hr]⟩
  | @enter f c m =>
    cases ha : (s.locks m.lock).available m.mode with
    | true => exact .inl ⟨.go, by simp [lockedSystem, Guards.locked, Guards.step, ha]⟩
    | false => exact .inr ⟨m.lock, m.mode, rfl, ha⟩
  | inside _ hb => cases hb <;> exact .inl ⟨.go, rfl⟩
  | leave => exact .inl ⟨.go, rfl⟩

/-- Whatever the other threads do, such a call returns within 66 steps of the
thread that makes it. Until then the thread can always go on, except where it
stands before the lock of a container that another thread has. -/
theorem calls_return (hr : lockedSystem.Reach Any (lockedInitial n p k) s)
    (h : lockedSystem.Exec Any s tr s') (ht : s.threads[t]? = some (.plain f :: rest))
    (hf : f.straight) :
    (∃ pre post s₁, tr = pre ++ post ∧ lockedSystem.Exec Any s pre s₁ ∧
      lockedSystem.Exec Any s₁ post s' ∧ s₁.threads[t]? = some rest ∧
      pre.countP (·.thread = t) ≤ 66) ∨
    (tr.countP (·.thread = t) < 66 ∧ ∃ g calls, s'.threads[t]? = some (g :: calls ++ rest) ∧
      ((∃ c, (lockedSystem.step s'.shared g c).isSome) ∨
        ∃ i mode, g.waits = some (i, mode) ∧ ∃ t' g' rest' mode', t' ≠ t ∧
          s'.threads[t']? = some (g' :: rest') ∧ g'.holds = some (i, mode'))) := by
  have hle : 6 * f.rank ≤ 66 := Nat.mul_le_mul_left 6 (straight_rank_le hf)
  have hcall : List.Forall₂ (LockedFrame.Within (Frame.straight ·) Frame.rank 3) [6 * f.rank]
      [(.plain f : ContainerFrame)] := .cons (.plain hf) .nil
  rcases h.returns (Guards.counts containerGuards_counts) ht hcall with
    ⟨pre, post, s₁, htr, hpre, hpost, hst, hcount⟩ | ⟨j, g, ns, calls, hst, hg, -, hcount⟩
  · exact .inl ⟨pre, post, s₁, htr, hpre, hpost, hst, hcount.trans (by simpa using hle)⟩
  · have hpos := hg.pos containerGuards_counts
    rw [List.sum_singleton] at hcount
    have hfew : tr.countP (·.thread = t) + (j + ns.sum) ≤ 6 * f.rank := hcount
    refine .inr ⟨by omega, g, calls, hst, (within_enabled s'.shared hg).imp_right ?_⟩
    rintro ⟨i, mode, hwaits, ha⟩
    have hnone : g.holds = none := by
      cases g <;> first | rfl | cases hwaits
    exact ⟨i, mode, hwaits, lockedInitial_unlocked.holder (hr.exec h) hst hnone ha⟩

/-- Thread 3 looks for the service while thread 4 has the lock of the map to add
another, and sends three more messages afterwards. -/
theorem calls_return_send :
    ∃ s tr s' pc, lockedSystem.Reach Any (lockedInitial 1 (fun i => 1 <<< i) 2) s ∧
      lockedSystem.Exec Any s tr s' ∧ s.threads[3]? = some [.plain (.send pc), .plain .caller] ∧
      (s.shared.locks .serviceMap).available .shared = false ∧
      ∃ pre post s₁, tr = pre ++ post ∧ lockedSystem.Exec Any s pre s₁ ∧
        s₁.threads[3]? = some [.plain .caller] ∧ pre.countP (·.thread = 3) ≤ 66 := by
  have h : ((lockedSystem.run Any (lockedInitial 1 (fun i => 1 <<< i) 2)
      ((3, .newGatewayService "gateway" 0) :: steps 3 5 ++
        (4, .newGatewayService "gateway" 0) :: steps 4 2 ++
        [(3, .sendMessage 0 (scriptMessage {} ""))])).any fun s =>
      (∃ stack ∈ s.threads[3]?, stack.map LockedFrame.plain? =
        [some (.send (.find 0 (scriptMessage {} ""))), some .caller]) ∧
      (s.shared.locks .serviceMap).available .shared = false ∧
      (lockedSystem.record Any s (steps 3 1 ++ steps 4 2 ++ steps 3 19 ++
        (List.replicate 3 ((3, .sendMessage 0 (scriptMessage {} "")) :: steps 3 15)).flatten)).any
          (fun r => 66 ≤ r.1.countP (·.thread = 3)) = true) = true := by decide +kernel
  obtain ⟨s, hs, ht, hlock, hrec⟩ := Machine.exists_of_run h
  obtain ⟨tr, s', hrun, hlong⟩ := Machine.exists_of_record hrec
  obtain ⟨stack, ht, hstack⟩ := ht
  obtain rfl :=
    eq_map_plain (F := [Frame.send (.find 0 (scriptMessage {} "")), Frame.caller]) hstack
  obtain ⟨pre, post, s₁, htr, hpre, -, hst, hle⟩ := (calls_return hs hrun ht rfl).resolve_right
    fun hfew => Nat.not_le.mpr hfew.1 hlong
  exact ⟨s, tr, s', _, hs, hrun, ht, hlock, pre, post, s₁, htr, hpre, hst, hle⟩

-- ---------------------------------------------------------------------------
-- One thread alone
-- ---------------------------------------------------------------------------

/-- A caller passes messages whose tag names their class. -/
def LockedTyped (_ : Interleaving.State LockedShared ContainerFrame)
    (l : Interleaving.Label ContainerFrame Choice ContainerOp) : Prop :=
  l.frame.plain? = some .caller → ∀ m ∈ l.choice.sent, m.type = m.body.type

instance (s : Interleaving.State LockedShared ContainerFrame)
    (l : Interleaving.Label ContainerFrame Choice ContainerOp) : Decidable (LockedTyped s l) :=
  inferInstanceAs (Decidable (_ → _))

theorem containerGuards_typed : containerGuards.Allows LockedTyped Typed where
  plain _ _ _ _ _ hc := by
    rintro rfl
    exact hc rfl
  method _ _ f _ _ m hm := by
    rintro rfl
    cases hm

/-- No other thread has the lock of a container or the mutex of `BlockWorker`. -/
def OthersOut (t : Nat) (s : Interleaving.State LockedShared ContainerFrame) : Prop :=
  ∀ t' stack, t' ≠ t → s.threads[t']? = some stack →
    ∀ f ∈ stack, f.holds = none ∧ ∀ g ∈ f.base, g.critical = false

/-- Whatever a thread is in the middle of, it can finish alone, unless another
thread has the lock of a container or the mutex of `BlockWorker` just then. -/
theorem thread_finishes (h : lockedSystem.Reach LockedTyped (lockedInitial n p k) s)
    (ht : s.threads[t]? = some stack) (hothers : OthersOut t s) :
    ∃ tr s', lockedSystem.Exec (Outer (·.calm = false) t) s tr s' ∧
      ∃ f : Frame, s'.threads[t]? = some [.plain f] ∧ f.calm := by
  have hlocks : LocksBut t s := fun t' stack hne ht' f hf => (hothers t' stack hne ht' f hf).1
  obtain ⟨tr₁, s₁, fs, hinner, ht₁⟩ := lockedInitial_unlocked.leaves .go h ht hlocks
  have hreach := h.exec (hinner.mono fun _ _ hc hplain => absurd (plain?_eq_some.mp hplain) (hc.1 _))
  have hstay : ∀ t' stack, t' ≠ t → s₁.threads[t']? = some stack → s.threads[t']? = some stack :=
    fun t' stack hne ht' => (hinner.others_stay hne).symm.trans ht'
  have hfree := (lockedInitial_unlocked.locksOk hreach).free
    (fun t' stack hne ht' => hlocks t' stack hne (hstay t' stack hne ht')) ht₁ holds_plain
  obtain ⟨tr', hexec⟩ := hreach
  obtain ⟨tr₀, hbase, -⟩ := Guards.refines lockedInitial_unlocked
    (forget_lockedInitial ▸ containerGuards_stable) containerGuards_typed hexec
  rw [forget_lockedInitial] at hbase
  have halone : Alone n p k t (forget s₁) := by
    refine ⟨⟨tr₀, hbase⟩, ?_, fs, by simp [forget, ht₁, flatMap_base_plain]⟩
    intro t' stack hne ht' f hf
    obtain ⟨stack', hget, rfl⟩ := Option.map_eq_some_iff.mp ((List.getElem?_map ..).symm.trans ht')
    obtain ⟨g, hg, hf⟩ := List.mem_flatMap.mp hf
    exact (hothers t' stack' hne (hstay t' stack' hne hget) g hg).2 f hf
  obtain ⟨tr₂, u, hrun, f, hf, hcalm⟩ := halone.finishes
  obtain ⟨tr₃, s', fs', houter, rfl, -, ht'⟩ :=
    Guards.realize_exec (P := (·.calm = false)) hrun (fun _ _ hc => hc.calm) rfl hfree ht₁
  refine ⟨_, s', (Inner.outer hinner _).trans houter, f, ?_, hcalm⟩
  rw [forget, List.getElem?_map, ht', Option.map_some, flatMap_base_plain] at hf
  cases hf
  exact ht'

/-- The worker is inside `PopFront` of the global queue, and takes a service. -/
theorem thread_finishes_round :
    ∃ s g, lockedSystem.Reach LockedTyped (lockedInitial 1 (fun i => 1 <<< i) 1) s ∧
      s.threads[0]? = some [g] ∧ g.holds = some (.globalServiceQueue, .exclusive) ∧
      s.shared.base.globalServiceQueue = [0] ∧
      ∃ tr s', lockedSystem.Exec (Outer (·.calm = false) 0) s tr s' ∧
        ∃ f : Frame, s'.threads[0]? = some [.plain f] ∧ f.calm := by
  have h : ((lockedSystem.run LockedTyped (lockedInitial 1 (fun i => 1 <<< i) 1)
      ((3, .newGatewayService "gateway" 0) :: steps 3 5 ++
        (3, .sendMessage 0 (scriptMessage {} "")) :: steps 3 20 ++ steps 0 2)).any fun s =>
      (∃ stack ∈ s.threads[0]?, stack.tail = [] ∧ ∃ g ∈ stack.head?,
        g.holds = some (.globalServiceQueue, .exclusive)) ∧
      s.shared.base.globalServiceQueue = [0] ∧
      ∀ stack ∈ s.threads.tail, ∀ f ∈ stack, f.holds = none ∧ ∀ g ∈ f.base, g.critical = false) =
        true := by
    decide +kernel
  obtain ⟨s, hs, ⟨stack, ht, htail, g, hg, hholds⟩, hq, hothers⟩ := Machine.exists_of_run h
  obtain ⟨rest, rfl⟩ := List.head?_eq_some_iff.mp hg
  obtain rfl : rest = [] := htail
  refine ⟨s, g, hs, ht, hholds, hq, thread_finishes hs ht ?_⟩
  intro t' stack hne ht'
  obtain ⟨j, rfl⟩ := Nat.exists_eq_succ_of_ne_zero hne
  exact hothers stack (List.mem_of_getElem? (List.getElem?_tail.trans ht'))

end XianNet
