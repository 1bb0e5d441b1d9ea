import XianNet.Interleaving.Weight
import XianNet.References

/-!
# The socket worker's thread

Frames of different threads are one multiset in the invariants, which forgets
that the socket worker is one thread. `Reach.socketThread` keeps that: the
event loop is at its loop, or inside one `OnAccept`, or inside one
`SendMessage`, and no other thread runs its functions.
-/

namespace XianNet

open Interleaving

variable {σ : Shared} {C : State → Label → Prop} {s s' : State} {p : Nat → Int}

/-- The stacks of the socket worker. -/
inductive SocketStack : List Frame → Prop
  | loop : SocketStack [.socket pc]
  | accept : SocketStack [.accept pc, .socket (.dispatch events)]
  | send : SocketStack [.send pc, .socket (.dispatch events)]

structure SocketThread (n : Nat) (s : State) : Prop where
  stack : ∃ stack, s.threads[n]? = some stack ∧ SocketStack stack
  others : ∀ t stack, t ≠ n → s.threads[t]? = some stack → ∀ f ∈ stack, f.isSocketWorker = false

theorem SocketStack.step (hst : SocketStack (f :: rest)) (h : Frame.step σ f c = some (op, fs)) :
    SocketStack (fs ++ rest) := by
  cases hst with
  | loop =>
    cases SocketPc.step_cases h with
    | wait | done | unknown => exact .loop
    | @event e c events =>
      unfold onEventFrames
      split <;> split
      · exact .accept
      · exact .loop
      · exact .send
      · exact .loop
  | accept =>
    cases AcceptPc.step_cases h with
    | accepted | failed | addConnection => exact .accept
    | added | notAdded => exact .send
  | send =>
    cases SendPc.step_cases h with
    | unknown | lost => exact .loop
    | @wakeUp p op next =>
      cases next
      · exact .loop
      · exact .send
    | _ => exact .send

theorem isSocketWorker_step (h : Frame.step σ f c = some (op, fs)) (hf : f.isSocketWorker = false)
    (hg : g ∈ fs) : g.isSocketWorker = false := by
  cases f with
  | worker w pc =>
    cases WorkerPc.step_cases h with
    | popMessage => rcases List.mem_pair.mp hg with rfl | rfl <;> rfl
    | _ => rw [List.mem_singleton.mp hg]; rfl
  | send pc =>
    obtain ⟨pc', rfl⟩ : ∃ pc', g = .send pc' := by
      cases SendPc.step_cases h with
      | unknown | lost => cases hg
      | wakeUp => obtain ⟨p', -, rfl⟩ := List.mem_map.mp hg; exact ⟨_, rfl⟩
      | _ => exact ⟨_, List.mem_singleton.mp hg⟩
    rfl
  | _ => exact (step_other rfl h).socket hf g hg

theorem SocketThread.step (hi : SocketThread n s) (h : system.Step s l s') : SocketThread n s' := by
  obtain ⟨rest, fs, ht, hm, rfl⟩ := Machine.Step.eq h
  obtain ⟨⟨stack, hn, hst⟩, hothers⟩ := hi
  have hlt := (List.getElem?_eq_some_iff.mp ht).1
  by_cases htn : l.thread = n
  · rw [htn] at ht hlt ⊢
    rw [hn] at ht
    cases Option.some.inj ht
    refine ⟨⟨_, List.getElem?_set_self hlt, hst.step hm⟩, fun t stack hne hget => ?_⟩
    exact hothers t stack hne (by rwa [List.getElem?_set_ne (Ne.symm hne)] at hget)
  · refine ⟨⟨stack, by rwa [List.getElem?_set_ne htn], hst⟩, fun t stack' hne hget f hf => ?_⟩
    by_cases htt : l.thread = t
    · subst htt
      rw [List.getElem?_set_self hlt] at hget
      cases Option.some.inj hget
      have hold := hothers l.thread _ hne ht
      rcases List.mem_append.mp hf with hf | hf
      · exact isSocketWorker_step hm (hold _ List.mem_cons_self) hf
      · exact hold f (List.mem_cons_of_mem _ hf)
    · exact hothers t stack' hne (by rwa [List.getElem?_set_ne htt] at hget) f hf

theorem Reach.socketThread (h : system.Reach C (initial n p k) s) : SocketThread n s := by
  have hlen : (startServiceWorker n p).length = n := by simp [startServiceWorker]
  refine h.induct (I := SocketThread n)
    ⟨⟨[.socket .epollWait], ?_, .loop⟩, ?_⟩
    fun s l s' _ hi _ hs => hi.step hs
  · rw [initial, List.getElem?_append_right (Nat.le_of_eq hlen), hlen, Nat.sub_self]; rfl
  · intro t stack hne hget f hf
    simp only [initial] at hget
    rcases Nat.lt_or_gt_of_ne hne with hlt | hgt
    · rw [List.getElem?_append_left (by rwa [hlen])] at hget
      obtain ⟨i, -, rfl⟩ := List.mem_map.mp (List.mem_of_getElem? hget)
      rw [List.mem_singleton.mp hf]; rfl
    · rw [List.getElem?_append_right (by rw [hlen]; exact Nat.le_of_lt hgt), hlen] at hget
      obtain ⟨j, hj⟩ := Nat.exists_eq_succ_of_ne_zero (Nat.sub_ne_zero_of_lt hgt)
      rw [hj, List.getElem?_cons_succ] at hget
      rcases List.mem_cons.mp (List.mem_of_getElem? hget) with rfl | hmem
      · rw [List.mem_singleton.mp hf]; rfl
      · rw [List.eq_of_mem_replicate hmem, List.mem_singleton] at hf
        rw [hf]; rfl

theorem SocketThread.eq_of_holds (hi : SocketThread n s) (hf : s.Holds t f)
    (hs : f.isSocketWorker) : t = n := by
  by_contra hne
  obtain ⟨stack, hget, hmem⟩ := hf
  rw [hi.others t stack hne hget f hmem] at hs
  cases hs

/-- The loop is about to block: nothing of the socket worker is left over. -/
theorem SocketThread.blocked (hi : SocketThread n s) (hb : .socket .epollWait ∈ s.frames)
    (hf : f ∈ s.frames) (hs : f.isSocketWorker) : f = .socket .epollWait := by
  obtain ⟨⟨stack, hn, hst⟩, hothers⟩ := hi
  have hmine : ∀ g ∈ s.frames, g.isSocketWorker → g ∈ stack := fun g hg hgs => by
    obtain ⟨t, stack', ht, hg⟩ := State.mem_frames.mp hg
    by_cases htn : t = n
    · subst htn; rw [hn] at ht; cases ht; exact hg
    · rw [hothers t stack' htn ht g hg] at hgs; cases hgs
  have hb := hmine _ hb rfl
  have hf := hmine f hf hs
  cases hst with
  | loop => rw [List.mem_singleton.mp hf, ← List.mem_singleton.mp hb]
  | accept | send => rcases List.mem_pair.mp hb with hb | hb <;> cases hb

def Frame.isAccept : Frame → Bool
  | .accept _ => true
  | _ => false

/-- `OnAccept` runs once at a time. -/
theorem SocketThread.accept_unique (hi : SocketThread n s) (hF : s.frames = .accept pc ::ₘ R) :
    .accept pc' ∉ R := by
  intro hmem
  obtain ⟨⟨stack, hn, hst⟩, hothers⟩ := hi
  obtain ⟨R', hR, hmemR⟩ := State.frames_split hn
  have hnone : weigh (fun f => (Frame.isAccept f).toNat) R' = 0 := weigh_eq_zero fun f hf => by
    obtain ⟨t, stack', hne, ht, hf⟩ := (hmemR f).mp hf
    have hsock := hothers t stack' hne ht f hf
    cases f with
    | accept => cases hsock
    | _ => rfl
  have hone : weigh (fun f => (Frame.isAccept f).toNat) (stack : Multiset Frame) ≤ 1 := by
    cases hst <;> simp [Frame.isAccept]
  have hle : 1 ≤ weigh (fun f => (Frame.isAccept f).toNat) R :=
    le_weigh (w := fun f => (Frame.isAccept f).toNat) hmem
  have hsum := congrArg (weigh fun f => (Frame.isAccept f).toNat) (hF.symm.trans hR)
  have hself : (Frame.isAccept (.accept pc)).toNat = 1 := rfl
  rw [weigh_cons, weigh_add, hnone, hself] at hsum
  omega

end XianNet
