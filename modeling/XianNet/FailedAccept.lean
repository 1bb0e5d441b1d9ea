import XianNet.Connections
import XianNet.Mailbox

/-!
# Numbers and the calls that returned them

`OnAccept` logs the -1 of a failed `accept` and goes on with it, into the map
and into a message (`failed_accept_entered`). Where no `accept` fails, every
number in the map came from a successful `socket` or `accept`, and every
number in an accept notification from an `accept`.
-/

namespace XianNet

open Interleaving

variable {σ : Shared} {s : State} {tr tr' : List Label}

/-- `OnAccept` gets -1 from `accept`. -/
def acceptFails (l : Label) : Bool :=
  match l.frame, l.choice with
  | .accept (.accept _), .failed => true
  | _, _ => false

def NoFailedAccept (_ : State) (l : Label) : Prop := acceptFails l = false

instance (s : State) (l : Label) : Decidable (NoFailedAccept s l) := by
  unfold NoFailedAccept; infer_instance

/-- The call that returned the number is in the trace, `accept` for a client
and `socket` for a listening socket. -/
def Opened (tr : List Label) (fd : Int32) (t : ConnectionType) : Prop :=
  0 ≤ fd ∧ ∃ l ∈ tr, l.op.opens = some (fd, t)

theorem Opened.append (h : Opened tr fd t) : Opened (tr ++ tr') fd t :=
  let ⟨hpos, l, hl, hop⟩ := h
  ⟨hpos, l, List.mem_append_left _ hl, hop⟩

/-- An accept notification is for an accepted client, or a caller made it up. -/
def Notifies (tr : List Label) (m : BaseMessage) : Prop :=
  ∀ b, m.body = .socketAccept b → Opened tr b.clientFd .client ∨ ∃ l ∈ tr, m ∈ l.choice.sent

theorem Notifies.append (h : Notifies tr m) : Notifies (tr ++ tr') m := by
  intro b hb
  rcases h b hb with h | ⟨l, hl, hsent⟩
  · exact .inl h.append
  · exact .inr ⟨l, List.mem_append_left _ hl, hsent⟩

-- ---------------------------------------------------------------------------
-- The steps
-- ---------------------------------------------------------------------------

/-- The number of the new socket that a frame goes on with. -/
def Frame.socketFd : Frame → Option (Int32 × ConnectionType)
  | .accept (.addConnection fd _) | .accept (.addEvent fd _) => some (fd, .client)
  | .listen (.bind fd _ _) | .listen (.listen fd _) | .listen (.addConnection fd _) =>
    some (fd, .listen)
  | _ => none

theorem socketFd_entry (h : Frame.isEntry g) : g.socketFd = none := by
  cases g with
  | accept pc | listen pc => cases pc <;> first | rfl | cases h
  | _ => rfl

theorem socketFd_step (h : Frame.step σ f c = some (op, fs))
    (hok : c = .failed → ∀ conn, f ≠ .accept (.accept conn)) (hg : g ∈ fs)
    (hx : g.socketFd = some (fd, t)) :
    f.socketFd = some (fd, t) ∨ (0 ≤ fd ∧ op.opens = some (fd, t)) := by
  have hsame : g.routine = f.routine := ((routine_step h g hg).2).resolve_right fun hentry => by
    rw [socketFd_entry hentry] at hx
    cases hx
  cases f with
  | accept pc =>
    cases AcceptPc.step_cases h with
    | accepted _ _ hfree =>
      rw [List.mem_singleton.mp hg] at hx
      cases hx
      exact .inr ⟨(Kernel.free_iff.mp hfree).1, rfl⟩
    | failed => exact absurd rfl (hok rfl _)
    | addConnection => rw [List.mem_singleton.mp hg] at hx; exact .inl hx
    | added | notAdded => rw [List.mem_singleton.mp hg] at hx; cases hx
  | listen pc =>
    cases ListenPc.step_cases h with
    | opened hfree hpos =>
      rw [List.mem_singleton.mp hg] at hx
      cases hx
      exact .inr ⟨(Kernel.free_iff.mp hfree).1, rfl⟩
    | bound | listening => rw [List.mem_singleton.mp hg] at hx; exact .inl hx
    | ret => cases hg
    | _ => rw [List.mem_singleton.mp hg] at hx; cases hx
  | _ => cases g <;> first | cases hx | cases hsame

/-- An entry is for the number that its maker goes on with. -/
theorem emplace_op (h : Frame.step σ f c = some (.emplaceConnection fd conn, fs)) :
    conn.fd = fd ∧ f.socketFd = some (fd, conn.type) := by
  cases Frame.step_cases h with
  | accept hs | listen hs => cases hs; exact ⟨rfl, rfl⟩
  | network hs | socket hs | close hs | gateway hs | modify hs => cases hs
  | offline ho => cases ho.outside

-- ---------------------------------------------------------------------------
-- Runs
-- ---------------------------------------------------------------------------

structure TracedOk (tr : List Label) (σ : Shared) (F : Multiset Frame) : Prop where
  frames : ∀ f ∈ F, ∀ fd t, f.socketFd = some (fd, t) → Opened tr fd t
  entry : ∀ k c, σ.connectionMap.find k = some c → k = c.fd.toUInt32 ∧ Opened tr c.fd c.type
  messages : Carried (Notifies tr) σ F
  pushed : ∀ r, ∀ m ∈ pushedTo r tr, Notifies tr m

theorem Makes.notifies (h : Makes σ l.frame l.choice m)
    (hframe : ∀ fd t, l.frame.socketFd = some (fd, t) → Opened tr fd t) :
    Notifies (tr ++ [l]) m := by
  intro b hb
  obtain ⟨thread, frame, choice, op⟩ := l
  cases h with
  | caller => exact .inr ⟨_, List.mem_append_right _ (List.mem_singleton_self _), rfl⟩
  | send => cases hb
  | onAccept =>
    cases hb
    exact .inl (hframe _ _ rfl).append
  | onRW => cases hb

theorem TracedOk.initial : TracedOk [] (initial n p k).shared (initial n p k).frames := by
  refine ⟨?_, ?_, .initial, ?_⟩
  · intro f hf fd t hx
    rcases mem_initial_frames hf with ⟨i, -, rfl⟩ | rfl | rfl | rfl <;> cases hx
  · intro k c hk; cases hk
  · intro r m hm; cases hm

theorem TracedOk.step (hi : TracedOk tr σ (l.frame ::ₘ R)) (hr : RefsOk σ (l.frame ::ₘ R))
    (hc : acceptFails l = false) (h : Frame.step σ l.frame l.choice = some (l.op, fs)) :
    TracedOk (tr ++ [l]) (σ.apply l.op) ((fs : Multiset Frame) + R) := by
  have hframe := hi.frames l.frame (Multiset.mem_cons_self _ R)
  refine ⟨?_, ?_, ?_, ?_⟩
  · intro g hg fd t hx
    rcases Multiset.mem_add.mp hg with hg | hg
    · have hok : l.choice = .failed → ∀ conn, l.frame ≠ .accept (.accept conn) := by
        intro hfailed conn hf
        rw [acceptFails, hf, hfailed] at hc
        cases hc
      rcases socketFd_step h hok hg hx with hx | ⟨hpos, hop⟩
      · exact (hframe fd t hx).append
      · exact ⟨hpos, l, by simp, hop⟩
    · exact (hi.frames g (Multiset.mem_cons_of_mem hg) fd t hx).append
  · intro k c hk
    rcases find_connection_apply hk with hk | ⟨fd, hop, rfl⟩
    · obtain ⟨hkey, hopened⟩ := hi.entry k c hk
      exact ⟨hkey, hopened.append⟩
    · rw [hop] at h
      obtain ⟨rfl, hf⟩ := emplace_op h
      exact ⟨rfl, (hframe _ _ hf).append⟩
  · refine Carried.step ⟨?_, ?_⟩ hr h ?_
    · intro f hf m hm; exact (hi.messages.frames f hf m hm).append
    · intro r m hm; exact (hi.messages.queues r m hm).append
    · intro m hmake; exact hmake.notifies hframe
  · intro r m hm
    rw [pushedTo, List.flatMap_append, List.mem_append] at hm
    rcases hm with hm | hm
    · exact (hi.pushed r m hm).append
    · rw [List.flatMap_singleton] at hm
      rw [mem_pushedTo.mp hm] at h
      have hf := (pushMessage_op h).1
      exact (hi.messages.frames _ (Multiset.mem_cons_self _ R) m (by rw [hf]; rfl)).append

theorem Exec.tracedOk (h : system.Exec NoFailedAccept (initial n p k) tr s) :
    TracedOk tr s.shared s.frames := by
  refine Machine.Exec.invariant (I := TracedOk) h .initial ?_
  intro tr s l fs R hr hc hF hm hi
  exact hi.step (hF ▸ Reach.refsOk ⟨tr, hr⟩) hc hm

/-- The accept of a client fails, and the loop blocks again with -1 in the map
and in the service's queue. -/
theorem failed_accept_entered :
    ∃ tr s, system.Exec Any (initial 1 (fun i => 1 <<< i) 1) tr s ∧
      s.threads[1]? = some [.socket .epollWait] ∧ (∀ l ∈ tr, l.choice.sent = none) ∧
      (∃ c, s.shared.connectionMap.find 4294967295 = some c ∧ c.fd = -1) ∧
      pushedTo 0 tr = [⟨.socketAccept, .socketAccept ⟨5, -1⟩⟩] ∧ ∀ t, ¬ Opened tr (-1) t := by
  have h : ((system.record Any (initial 1 (fun i => 1 <<< i) 1)
      (creates 3 ++ listens 3 5 0 ++ (2, .connect 0) :: polls 1 5 0 ++
        [(1, .failed), (1, .go), (1, .failed)] ++ steps 1 6)).any fun r =>
        r.2.threads[1]? = some [.socket .epollWait] ∧
        (r.1.all fun l => l.choice.sent = none) ∧
        (r.2.shared.connectionMap.find 4294967295).map (·.fd) = some (-1) ∧
        pushedTo 0 r.1 = [⟨.socketAccept, .socketAccept ⟨5, -1⟩⟩]) = true := by
    decide +kernel
  obtain ⟨tr, s, hs, hloop, hsent, hfind, hpush⟩ := Machine.exists_of_record h
  obtain ⟨c, hc, hfd⟩ := Option.map_eq_some_iff.mp hfind
  exact ⟨tr, s, hs, hloop, fun l hl => by simpa using List.all_eq_true.mp hsent l hl, ⟨c, hc, hfd⟩,
    hpush, fun t hopened => absurd hopened.1 (by decide)⟩

/-- Where no `accept` fails, an entry's key is its number, which `socket` or
`accept` returned, and an accept notification of the program names a number
that `accept` returned. -/
theorem traced_of_accepted (h : system.Exec NoFailedAccept (initial n p k) tr s) :
    (∀ key c, s.shared.connectionMap.find key = some c →
      key = c.fd.toUInt32 ∧ 0 ≤ c.fd ∧ Opened tr c.fd c.type) ∧
    ∀ r m b, m ∈ pushedTo r tr → m.body = .socketAccept b →
      Opened tr b.clientFd .client ∨ ∃ l ∈ tr, m ∈ l.choice.sent := by
  have hi := Exec.tracedOk h
  constructor
  · intro key c hc
    obtain ⟨hkey, hopened⟩ := hi.entry key c hc
    exact ⟨hkey, hopened.1, hopened⟩
  · intro r m b hm hb
    exact hi.pushed r m hm b hb

/-- A client that was accepted as 6. -/
theorem traced_of_accepted_client :
    ∃ tr s, system.Exec NoFailedAccept (initial 1 (fun i => 1 <<< i) 1) tr s ∧
      pushedTo 0 tr = [⟨.socketAccept, .socketAccept ⟨5, 6⟩⟩] ∧ Opened tr 6 .client := by
  have h : ((system.record NoFailedAccept (initial 1 (fun i => 1 <<< i) 1)
      (creates 3 ++ listens 3 5 0 ++ (2, .connect 0) :: polls 1 5 0 ++ accepts 1 6 [] ++
        steps 1 6)).any fun r =>
        (r.2.shared.connectionMap.find 6).map (fun c => (c.fd, c.type)) = some (6, .client) ∧
        pushedTo 0 r.1 = [⟨.socketAccept, .socketAccept ⟨5, 6⟩⟩]) = true := by
    decide +kernel
  obtain ⟨tr, s, hs, hfind, hpush⟩ := Machine.exists_of_record h
  obtain ⟨c, hc, heq⟩ := Option.map_eq_some_iff.mp hfind
  obtain ⟨hfd, htype⟩ := Prod.mk.inj heq
  obtain ⟨-, -, hopened⟩ := (traced_of_accepted hs).1 6 c hc
  exact ⟨tr, s, hs, hpush, by rwa [hfd, htype] at hopened⟩

end XianNet
