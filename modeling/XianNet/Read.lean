import XianNet.Interleaving.Rules
import XianNet.Mailbox
import XianNet.Registration

/-!
# Reading what clients send

A client socket is registered edge-triggered like the listening one, but its
report travels further: the event loop turns it into a message, and a worker
that handles the message reads until nothing is left. `no_bytes_left` says who
is responsible for unread bytes at each point.
-/

namespace XianNet

open Interleaving

variable {σ σ' : Shared} {C : State → Label → Prop} {s : State} {n : Nat}

-- ---------------------------------------------------------------------------
-- Services and their queues
-- ---------------------------------------------------------------------------

/-- The gateway service that is registered under an id. -/
def Serves (σ : Shared) (id : UInt32) (r : ServiceRef) : Prop :=
  σ.serviceMap.find id = some r ∧ (σ.services r).cls = .gateway

theorem Serves.apply {op : Op} {id : UInt32} (h : Serves σ id r) (hr : RefsOk σ F)
    (hop : op ≠ .eraseService id) : Serves (σ.apply op) id r := by
  obtain ⟨hfind, hcls⟩ := h
  exact ⟨find_serviceMap_stays hfind hop, by rw [cls_stays (hr.map id r hfind), hcls]⟩

/-- A queued message stays, or its handler starts. -/
theorem queued_step (h : Frame.step σ f c = some (op, fs)) (hrefs : RefsOk σ (f ::ₘ R))
    (hm : m ∈ (σ.services r).messageQueue) :
    m ∈ ((σ.apply op).services r).messageQueue ∨ .handler r m ∈ fs := by
  cases f with
  | worker w pc =>
    cases WorkerPc.step_cases h with
    | @popMessage r' m' messages i _ hq =>
      by_cases hr : r = r'
      · subst hr
        rw [hq] at hm
        rcases List.mem_cons.mp hm with rfl | hm
        · exact .inr List.mem_cons_self
        · refine .inl ?_
          rw [messageQueue_popMessage, if_pos rfl, hq]
          exact hm
      · refine .inl ?_
        rw [messageQueue_popMessage, if_neg hr]
        exact hm
    | clearFlag => exact .inl (by rwa [messageQueue_clearFlag])
    | won | lost => exact .inl (by rwa [messageQueue_raiseFlag])
    | block hb => exact .inl (by rwa [services_sleep hb.isSleep])
    | _ => exact .inl hm
  | send pc =>
    cases SendPc.step_cases h with
    | pushMessage =>
      refine .inl ?_
      rw [messageQueue_pushMessage]
      split
      · rename_i hr; exact List.mem_append_left _ (hr ▸ hm)
      · exact hm
    | won | lost => exact .inl (by rwa [messageQueue_raiseFlag])
    | wakeUp hw => exact .inl (by rwa [services_sleep hw.isSleep])
    | _ => exact .inl hm
  | _ =>
    have ho := step_other rfl h
    have hs := ho.same hrefs
    exact .inl (by rwa [hs.messages])

-- ---------------------------------------------------------------------------
-- Runs
-- ---------------------------------------------------------------------------

/-- The number that `Read` is about to read from. -/
def Frame.reading : Frame → Option Int32
  | .gateway (.read fd _) => some fd
  | _ => none

/-- A result of `read` that ends the loop of `Read`. -/
def Choice.isEnd : Choice → Bool
  | .result n => n ≤ 0
  | _ => false

/-- Nothing is closed, `epoll_ctl` adds every open number, `read` returns bytes
while there are any, and a client's service is a gateway that is registered
when the connection is added and stays registered. -/
structure ReadSucceeds (s : State) (l : Label) : Prop where
  noClose : NoClose s l
  epollCtl : l.choice = .failed → ∀ fd ∈ l.frame.adding, s.shared.kernel.descriptors fd = none
  read : l.choice.isEnd → ∀ fd ∈ l.frame.reading, ∀ x ∈ s.shared.kernel.descriptors fd,
    (s.shared.kernel.files x).received = []
  owner : ∀ fd c, l.op = .emplaceConnection fd c → c.type = .client →
    ∃ r, Serves s.shared c.serviceId r
  registered : ∀ k c, s.shared.connectionMap.find k = some c → c.type = .client →
    l.op ≠ .eraseService c.serviceId

/-- Every client's service is a registered gateway. -/
def Owned (σ : Shared) : Prop :=
  ∀ k c, σ.connectionMap.find k = some c → c.type = .client → ∃ r, Serves σ c.serviceId r

theorem Owned.apply {op : Op} (hi : Owned σ) (hr : RefsOk σ F)
    (howner : ∀ fd c, op = .emplaceConnection fd c → c.type = .client → ∃ r, Serves σ c.serviceId r)
    (hkeep : ∀ k c, σ.connectionMap.find k = some c → c.type = .client →
      op ≠ .eraseService c.serviceId) :
    Owned (σ.apply op) := by
  intro k c hk htype
  cases op with
  | emplaceConnection fd c' =>
    simp only [Shared.apply, RwlockUnorderedMap.find_emplace] at hk
    split at hk
    · cases hk
      exact howner fd c rfl htype
    · exact hi k c hk htype
  | eraseConnection k' =>
    simp only [Shared.apply, RwlockUnorderedMap.find_erase] at hk
    split at hk
    · cases hk
    · exact hi k c hk htype
  | _ =>
    obtain ⟨r, hserves⟩ := hi k c hk htype
    exact ⟨r, hserves.apply hr (hkeep k c hk htype)⟩

theorem Reach.owned (h : system.Reach ReadSucceeds (initial n p k) s) : Owned s.shared := by
  refine h.invariant (I := fun σ _ => Owned σ) ?_ ?_
  · intro k c hk; cases hk
  · intro s l fs R hr hc hF hm hi
    exact hi.apply (Reach.refsOk hr) hc.owner hc.registered

theorem Reach.noClose (h : system.Reach ReadSucceeds (initial n p k) s) :
    system.Reach NoClose (initial n p k) s := h.mono fun _ _ hc => hc.noClose

-- ---------------------------------------------------------------------------
-- Clients before their registration
-- ---------------------------------------------------------------------------

/-- `OnAccept` has not yet registered the client. -/
def Frame.admits (k : Kernel) (x : FileRef) : Frame → Prop
  | .accept (.addConnection fd _) | .accept (.addEvent fd _) => k.descriptors fd = some x
  | _ => False

theorem admits_grows (hg : Grows σ σ') (h : Frame.admits σ.kernel x f) :
    f.admits σ'.kernel x := by
  cases f with
  | accept pc =>
    cases pc with
    | accept => cases h
    | addConnection | addEvent => exact hg.descriptors _ _ h
  | _ => cases h

theorem admits_step (h : Frame.step σ f c = some (op, fs)) (hg : Grows σ (σ.apply op))
    (hctl : c = .failed → ∀ fd ∈ f.adding, σ.kernel.descriptors fd = none)
    (hi : ((σ.apply op).kernel.files x).interest = none) (hch : f.admits σ.kernel x) :
    ∃ g ∈ fs, g.admits (σ.apply op).kernel x := by
  cases f with
  | accept pc =>
    cases AcceptPc.step_cases h with
    | accepted | failed => cases hch
    | addConnection => exact ⟨_, List.mem_singleton_self _, hg.descriptors _ _ hch⟩
    | @added fd f' _ hd =>
      obtain rfl : f' = x := Option.some.inj (hd.symm.trans hch)
      simp [Shared.apply, Kernel.epollAdd, Kernel.files_updateFile] at hi
    | notAdded =>
      have hnone := hctl rfl _ rfl
      rw [hch] at hnone
      cases hnone
  | _ => cases hch

/-- A client without a registration is still on its way through `OnAccept`. -/
theorem Reach.admitted (h : system.Reach ReadSucceeds (initial n p k) s) :
    ∀ x, (s.shared.kernel.files x).isClient → (s.shared.kernel.files x).interest = none →
      ∃ f ∈ s.frames, f.admits s.shared.kernel x := by
  intro x hx hnone
  refine Or.resolve_left (h.obligation
    (fun σ x => (σ.kernel.files x).isClient ∧ (σ.kernel.files x).interest = none)
    (fun _ _ => False) (fun σ f x => f.admits σ.kernel x) ?_ ?_ ?_ x ⟨hx, hnone⟩) id
  · intro x hx; cases hx.1
  · intro s l fs R hr _ hF hm f hf x hch
    have hcl := Reach.frame_closing (Reach.noClose hr) hF
    exact admits_grows (grows_step hm hcl) hch
  · intro s l fs R hr hc hF hm x hneed
    have hcl := Reach.frame_closing (Reach.noClose hr) hF
    have hg := grows_step hm hcl
    have hk := Reach.kernelOk hr
    rcases client_apply hneed.1 with ⟨l', fd, received, hop, rfl⟩ | hclient
    · rw [hop] at hm ⊢
      obtain ⟨conn, rfl⟩ := accept_op hm
      refine .inr (.inl ⟨.accept (.addConnection fd conn), by simp, ?_⟩)
      show (s.shared.apply (.accept l' fd received)).kernel.descriptors fd = _
      simp [Shared.apply, Kernel.accept, Kernel.descriptors_openFile]
    have hold : (s.shared.kernel.files x).interest = none := by
      by_contra hi
      have hkept := interest_step hm hcl (hk.client x hclient) (Option.isSome_iff_ne_none.mpr hi)
      rw [Option.isSome_iff_ne_none] at hkept
      exact hkept hneed.2
    by_cases hch : l.frame.admits s.shared.kernel x
    · obtain ⟨g, hmem, hch'⟩ := admits_step hm hg hc.epollCtl hneed.2 hch
      exact .inr (.inl ⟨g, by simp [hmem], hch'⟩)
    · exact .inr (.inr ⟨⟨hclient, hold⟩, id, hch⟩)

-- ---------------------------------------------------------------------------
-- Unread bytes
-- ---------------------------------------------------------------------------

def Unread (k : Kernel) (x : FileRef) : Prop :=
  (k.files x).isClient ∧ (k.files x).received ≠ []

/-- Bytes that come new to a registered client are marked. -/
theorem unread_apply {op : Op} (h : Unread (σ.apply op).kernel x)
    (hi : ((σ.apply op).kernel.files x).interest.isSome)
    (hr : ((σ.apply op).kernel.files x).ready = false) : Unread σ.kernel x := by
  obtain ⟨file, heq, hstep⟩ := file_step σ op x
  unfold Unread at h ⊢
  rw [heq] at h hi hr
  obtain ⟨hclient, hne⟩ := h
  cases hstep with
  | opened | accepted | closed | removed => cases hi
  | read => exact ⟨hclient, fun hnil => hne (by simp [hnil])⟩
  | delivered => simp_all [Kernel.notify]
  | _ => exact ⟨hclient, hne⟩

/-- `OnRW`'s message for `fd`, with `can_read_`. -/
def BaseMessage.reads (fd : Int32) (m : BaseMessage) : Prop :=
  ∃ b : SocketRWMessage, m = ⟨.socketRw, .socketRw b⟩ ∧ b.canRead = true ∧ b.fd = fd

/-- The message is about the client, and goes to the service of its entry. -/
def Forwards (σ : Shared) (x : FileRef) (target : UInt32) (m : BaseMessage) : Prop :=
  ∃ fd c, σ.kernel.descriptors fd = some x ∧ m.reads fd ∧
    σ.connectionMap.find fd.toUInt32 = some c ∧ c.type = .client ∧ c.serviceId = target

/-- The message asks the client's gateway to read. -/
def Asks (σ : Shared) (x : FileRef) (r : ServiceRef) (m : BaseMessage) : Prop :=
  ∃ target, Forwards σ x target m ∧ Serves σ target r

def Queued (σ : Shared) (x : FileRef) : Prop :=
  ∃ r m, Asks σ x r m ∧ m ∈ (σ.services r).messageQueue

/-- Thread `t` is at a point from which the client will be read; the socket
worker is thread `n`. -/
def Frame.willRead (n : Nat) (σ : Shared) (t : Nat) (x : FileRef) : Frame → Prop
  | .accept (.addConnection fd _) | .accept (.addEvent fd _) => σ.kernel.descriptors fd = some x
  | .socket (.dispatch events) =>
    ∃ e ∈ events, e.epollIn = true ∧ σ.kernel.descriptors e.fd = some x
  | .send (.find target m) => t = n ∧ Forwards σ x target m
  | .send (.pushMessage r m) => t = n ∧ Asks σ x r m
  | .handler r m => Asks σ x r m
  | .processSocketRwMessage r b => Asks σ x r ⟨.socketRw, .socketRw b⟩
  | .gateway (.read fd _) => σ.kernel.descriptors fd = some x
  | _ => False

theorem Forwards.grows (h : Forwards σ x target m) (hg : Grows σ σ') : Forwards σ' x target m := by
  obtain ⟨fd, c, hd, hm, hc, htype, htarget⟩ := h
  exact ⟨fd, c, hg.descriptors _ _ hd, hm, hg.find _ _ hc, htype, htarget⟩

section
variable {op : Op} {f : Frame} {fs : List Frame} {R : Multiset Frame}

/-- What was asked of the gateway stays asked. -/
theorem Asks.apply (h : Asks σ x r m) (hg : Grows σ (σ.apply op)) (hr : RefsOk σ F)
    (hkeep : ∀ k c, σ.connectionMap.find k = some c → c.type = .client →
      op ≠ .eraseService c.serviceId) : Asks (σ.apply op) x r m := by
  obtain ⟨target, hfor, hserves⟩ := h
  obtain ⟨fd, c, hd, hm, hc, htype, rfl⟩ := hfor
  exact ⟨_, Forwards.grows ⟨fd, c, hd, hm, hc, htype, rfl⟩ hg,
    hserves.apply hr (hkeep _ c hc htype)⟩

theorem willRead_apply (hg : Grows σ (σ.apply op)) (hr : RefsOk σ F)
    (hkeep : ∀ k c, σ.connectionMap.find k = some c → c.type = .client →
      op ≠ .eraseService c.serviceId)
    (h : Frame.willRead n σ t x f) : f.willRead n (σ.apply op) t x := by
  cases f with
  | accept pc =>
    cases pc with
    | accept => cases h
    | addConnection | addEvent => exact hg.descriptors _ _ h
  | socket pc =>
    cases pc with
    | epollWait => cases h
    | dispatch events =>
      obtain ⟨e, he, hin, hd⟩ := h
      exact ⟨e, he, hin, hg.descriptors _ _ hd⟩
  | send pc =>
    cases pc with
    | find target m => exact ⟨h.1, h.2.grows hg⟩
    | pushMessage r m => exact ⟨h.1, h.2.apply hg hr hkeep⟩
    | _ => cases h
  | handler | processSocketRwMessage => exact Asks.apply h hg hr hkeep
  | gateway pc =>
    cases pc with
    | read fd result => exact hg.descriptors _ _ h
    | write => cases h
  | _ => cases h

theorem queued_apply (h : Frame.step σ f c = some (op, fs)) (hg : Grows σ (σ.apply op))
    (hr : RefsOk σ (f ::ₘ R))
    (hkeep : ∀ k c, σ.connectionMap.find k = some c → c.type = .client →
      op ≠ .eraseService c.serviceId)
    (hq : Queued σ x) : Queued (σ.apply op) x ∨ ∃ g ∈ fs, g.willRead n (σ.apply op) t x := by
  obtain ⟨r, m, hask, hm⟩ := hq
  have hask' := hask.apply hg hr hkeep
  rcases queued_step h hr hm with hm' | hm'
  · exact .inl ⟨r, m, hask', hm'⟩
  · exact .inr ⟨_, hm', hask'⟩

theorem willRead_reported (hk : KernelOk σ.kernel) (hu : Unread σ.kernel x) (he : e ∈ events)
    (hfile : e.file = x) (hrep : σ.kernel.reports e) :
    (Frame.socket (.dispatch events)).willRead n σ t x := by
  subst hfile
  obtain ⟨hd, -, hin⟩ := hk.of_reports hrep
  exact ⟨e, he, hin (by simp [File.readable, hu.2]), hd⟩

/-- A client's report leads to a message to its service. -/
theorem willRead_event (hn : NetworkOk σ F) (he : EnteredOk σ F) (hu : Unread σ.kernel x)
    (hi : (σ.kernel.files x).interest.isSome) (hin : e.epollIn = true)
    (hd : σ.kernel.descriptors e.fd = some x) :
    ∃ c, σ.connectionMap.find e.fd.toUInt32 = some c ∧
      onEventFrames c e = [.send (.find c.serviceId (rwMessage c e))] ∧
      Forwards σ x c.serviceId (rwMessage c e) := by
  obtain ⟨c, hc, hfd, -, hkind⟩ := hn.entry_of_registered he hi hd
  rw [hu.1] at hkind
  have htype : c.type = .client := by simpa using hkind.symm
  refine ⟨c, hc, by simp [onEventFrames, htype, hin], e.fd, c, hd, ?_, hc, htype, rfl⟩
  exact ⟨⟨c.fd, e.epollIn, e.epollOut, e.file⟩, rfl, hin, hfd⟩

theorem willRead_step (hn : NetworkOk σ (f ::ₘ R)) (he : EnteredOk σ (f ::ₘ R))
    (hr : RefsOk σ (f ::ₘ R)) (ho : Owned σ) (h : Frame.step σ f c = some (op, fs))
    (hg : Grows σ (σ.apply op))
    (hctl : c = .failed → ∀ fd ∈ f.adding, σ.kernel.descriptors fd = none)
    (hread : c.isEnd → ∀ fd ∈ f.reading, ∀ x ∈ σ.kernel.descriptors fd,
      (σ.kernel.files x).received = [])
    (hkeep : ∀ k c, σ.connectionMap.find k = some c → c.type = .client →
      op ≠ .eraseService c.serviceId)
    (ht : f.isSocketWorker → t = n) (hu : Unread σ.kernel x)
    (hi' : ((σ.apply op).kernel.files x).interest.isSome)
    (hready' : ((σ.apply op).kernel.files x).ready = false) (hch : f.willRead n σ t x) :
    Queued (σ.apply op) x ∨ ∃ g ∈ fs, g.willRead n (σ.apply op) t x := by
  cases f with
  | accept pc =>
    cases AcceptPc.step_cases h with
    | accepted | failed => cases hch
    | addConnection => exact .inr ⟨_, List.mem_singleton_self _, hg.descriptors _ _ hch⟩
    | @added fd f' _ hd =>
      -- the registration finds the bytes that came before it
      obtain rfl : f' = x := Option.some.inj (hd.symm.trans hch)
      simp [Shared.apply, Kernel.epollAdd, Kernel.files_updateFile, File.readable, hu.2] at hready'
    | notAdded =>
      have hnone := hctl rfl _ rfl
      rw [hch] at hnone
      cases hnone
  | socket pc =>
    cases SocketPc.step_cases h with
    | wait => cases hch
    | done => obtain ⟨e, hmem, -⟩ := hch; cases hmem
    | @unknown e events hnone =>
      obtain ⟨e', hmem, hin, hd⟩ := hch
      rcases List.mem_cons.mp hmem with rfl | hmem
      · obtain ⟨c, hc, -⟩ := willRead_event hn he hu hi' hin hd
        rw [hnone] at hc
        cases hc
      · exact .inr ⟨_, List.mem_singleton_self _, e', hmem, hin, hd⟩
    | @event conn e events hc =>
      obtain ⟨e', hmem, hin, hd⟩ := hch
      rcases List.mem_cons.mp hmem with rfl | hmem
      · obtain ⟨c', hc', hfs, hfor⟩ := willRead_event hn he hu hi' hin hd
        obtain rfl : conn = c' := Option.some.inj (hc.symm.trans hc')
        rw [hfs]
        exact .inr ⟨_, List.mem_cons_self, ht rfl, hfor⟩
      · exact .inr ⟨_, List.mem_append_right _ (List.mem_singleton_self _), e', hmem, hin, hd⟩
  | send pc =>
    cases SendPc.step_cases h with
    | unknown hnone =>
      obtain ⟨-, fd, c, -, -, hc, htype, rfl⟩ := hch
      obtain ⟨r, hfind, -⟩ := ho _ c hc htype
      rw [hnone] at hfind
      cases hfind
    | found hfind =>
      obtain ⟨htn, hfor⟩ := hch
      obtain ⟨fd, c, -, -, hc, htype, rfl⟩ := id hfor
      obtain ⟨r', hserves⟩ := ho _ c hc htype
      obtain rfl := Option.some.inj (hfind.symm.trans hserves.1)
      exact .inr ⟨_, List.mem_singleton_self _, htn, _, hfor, hserves⟩
    | @pushMessage r m =>
      refine .inl ⟨r, m, hch.2.apply hg hr hkeep, ?_⟩
      rw [messageQueue_pushMessage, if_pos rfl]
      exact List.mem_append_right _ (List.mem_singleton_self m)
    | _ => cases hch
  | handler r m =>
    obtain ⟨target, ⟨fd, c, hd, ⟨b, rfl, hcan, rfl⟩, hc⟩, hserves⟩ := id hch
    cases h
    exact .inr ⟨_, List.mem_singleton_self _, hch⟩
  | processSocketRwMessage r b =>
    obtain ⟨target, ⟨fd, c, hd, ⟨b, hb, hcan, rfl⟩, -⟩, -, hcls⟩ := hch
    cases hb
    cases h
    refine .inr ⟨.gateway (.read b.fd []), ?_, hd⟩
    simp [processSocketRwMessageFrames, hcls, socketRwFrames, hcan]
  | gateway pc =>
    cases GatewayPc.step_cases h with
    | readClosed hnone =>
      rw [hch] at hnone
      cases hnone
    | readEnd _ hle =>
      have hnil := hread (by simpa [Choice.isEnd] using hle) _ rfl x hch
      exact absurd hnil hu.2
    | readMore => exact .inr ⟨_, List.mem_singleton_self _, hch⟩
    | _ => cases hch
  | _ => cases hch

end

theorem willRead_of_admits (h : Frame.admits σ.kernel x f) : f.willRead n σ t x := by
  cases f with
  | accept pc =>
    cases pc with
    | accept => cases h
    | addConnection | addEvent => exact h
  | _ => cases h

theorem Reach.unread (h : system.Reach ReadSucceeds (initial n p k) s) :
    ∀ x, Unread s.shared.kernel x →
      ((s.shared.kernel.files x).ready ∨ Queued s.shared x) ∨
        ∃ t f, s.Holds t f ∧ f.willRead n s.shared t x := by
  refine h.obligation_at (fun σ x => Unread σ.kernel x)
    (fun σ x => (σ.kernel.files x).ready ∨ Queued σ x) (fun σ t f x => f.willRead n σ t x) ?_ ?_ ?_
  · intro x hu; cases hu.1
  · intro s l fs R hr hc hF hm t f hf x hch
    have hcl := Reach.frame_closing (Reach.noClose hr) hF
    exact willRead_apply (grows_step hm hcl) (Reach.refsOk hr) hc.registered hch
  · intro s l s' hr hc hs x hu'
    obtain ⟨fs, R, hm, hF, -, hsh⟩ := hs.frames
    obtain ⟨fs', hm', hheld, -, hnew⟩ := hs.holds_new
    obtain rfl : fs' = fs := by rw [hm] at hm'; cases hm'; rfl
    have hcl := Reach.frame_closing (Reach.noClose hr) hF
    have hn := Reach.networkOk (Reach.careful (Reach.noClose hr))
    have hg := grows_step hm hcl
    rw [hsh] at hu' ⊢
    by_cases hready' : ((s.shared.apply l.op).kernel.files x).ready = true
    · exact .inl (.inl hready')
    cases hi' : ((s.shared.apply l.op).kernel.files x).interest with
    | none =>
      have hadm := Reach.admitted (hr.exec (.single hc hs)) x
      rw [hsh] at hadm
      obtain ⟨f, hf, hadm⟩ := hadm hu'.1 hi'
      obtain ⟨t, hholds⟩ := State.mem_frames.mp hf
      exact .inr (.inl ⟨t, f, hholds, willRead_of_admits hadm⟩)
    | some interest =>
      have hi' : ((s.shared.apply l.op).kernel.files x).interest.isSome := by rw [hi']; rfl
      have hready' : ((s.shared.apply l.op).kernel.files x).ready = false := by simpa using hready'
      have hu := unread_apply hu' hi' hready'
      by_cases hready : (s.shared.kernel.files x).ready = true
      · obtain ⟨events, rfl, e, he, hfile, hrep⟩ := report_step hn.kernel hm hcl hready hready'
        have hrd := willRead_reported (n := n) (t := l.thread) hn.kernel hu he hfile hrep
        exact .inr (.inl ⟨l.thread, _, hnew _ (List.mem_singleton_self _),
          willRead_apply hg (Reach.refsOk hr) hc.registered hrd⟩)
      by_cases hq : Queued s.shared x
      · rcases queued_apply (n := n) (t := l.thread) hm hg (hF ▸ Reach.refsOk hr) hc.registered hq
          with hq' | ⟨g, hmem, hch⟩
        · exact .inl (.inr hq')
        · exact .inr (.inl ⟨l.thread, g, hnew g hmem, hch⟩)
      by_cases hch : l.frame.willRead n s.shared l.thread x
      · have ht : l.frame.isSocketWorker → l.thread = n := fun hsock =>
          (Reach.socketThread hr).eq_of_holds hheld hsock
        rcases willRead_step (hF ▸ hn) (hF ▸ Reach.enteredOk (Reach.noClose hr))
          (hF ▸ Reach.refsOk hr) (Reach.owned hr) hm hg hc.epollCtl hc.read hc.registered ht hu hi'
          hready' hch with hq' | ⟨g, hmem, hch⟩
        · exact .inl (.inr hq')
        · exact .inr (.inl ⟨l.thread, g, hnew g hmem, hch⟩)
      · exact .inr (.inr ⟨hu, fun hmark => hmark.elim hready hq, hch⟩)

/-- Who sees to it that the bytes of the client `x`, number `fd`, are read. -/
inductive InCharge (n : Nat) (s : State) (x : FileRef) (fd : Int32) : Prop
  /-- `OnAccept` has not yet executed `AddEvent`. -/
  | adding : .accept (.addConnection fd c) ∈ s.frames ∨ .accept (.addEvent fd c) ∈ s.frames →
      InCharge n s x fd
  | marked : (s.shared.kernel.files x).ready → InCharge n s x fd
  /-- The socket worker holds the event. -/
  | reported : .socket (.dispatch events) ∈ s.frames → e ∈ events → e.fd = fd → e.epollIn = true →
      InCharge n s x fd
  /-- The socket worker is inside the `SendMessage` of `OnRW`. -/
  | sending : s.Holds n (.send (.find target m)) → m.reads fd → InCharge n s x fd
  | pushing : s.Holds n (.send (.pushMessage r m)) → m.reads fd → InCharge n s x fd
  /-- The message is in the queue of the gateway of the connection, or its
  handler is about to run. -/
  | asked : s.shared.connectionMap.find fd.toUInt32 = some c → Serves s.shared c.serviceId r →
      m.reads fd → m ∈ (s.shared.services r).messageQueue ∨ .handler r m ∈ s.frames ∨
        m.body.method r ∈ s.frames → InCharge n s x fd
  /-- `Read` has not returned. -/
  | reading : .gateway (.read fd result) ∈ s.frames → InCharge n s x fd

theorem Asks.gateway (h : Asks σ x r m) (hfd : ∀ fd', σ.kernel.descriptors fd' = some x → fd' = fd) :
    m.reads fd ∧ ∃ c, σ.connectionMap.find fd.toUInt32 = some c ∧ Serves σ c.serviceId r := by
  obtain ⟨target, ⟨fd', c, hd, hm, hc, -, rfl⟩, hserves⟩ := h
  obtain rfl := hfd fd' hd
  exact ⟨hm, c, hc, hserves⟩

theorem inCharge_of_willRead (hfd : ∀ fd', s.shared.kernel.descriptors fd' = some x → fd' = fd)
    (hheld : s.Holds t f) (h : f.willRead n s.shared t x) : InCharge n s x fd := by
  have hmem : f ∈ s.frames := State.mem_frames.mpr ⟨t, hheld⟩
  cases f with
  | accept pc =>
    cases pc with
    | accept => cases h
    | addConnection => obtain rfl := hfd _ h; exact .adding (.inl hmem)
    | addEvent => obtain rfl := hfd _ h; exact .adding (.inr hmem)
  | socket pc =>
    cases pc with
    | epollWait => cases h
    | dispatch events =>
      obtain ⟨e, he, hin, hd⟩ := h
      exact .reported hmem he (hfd _ hd) hin
  | send pc =>
    cases pc with
    | find target m =>
      obtain ⟨rfl, fd', c, hd, hm, -⟩ := h
      obtain rfl := hfd fd' hd
      exact .sending hheld hm
    | pushMessage r m =>
      obtain ⟨rfl, hask⟩ := h
      exact .pushing hheld (hask.gateway hfd).1
    | _ => cases h
  | handler r m =>
    obtain ⟨hm, c, hc, hserves⟩ := Asks.gateway h hfd
    exact .asked hc hserves hm (.inr (.inl hmem))
  | processSocketRwMessage r b =>
    obtain ⟨hm, c, hc, hserves⟩ := Asks.gateway h hfd
    exact .asked hc hserves hm (.inr (.inr hmem))
  | gateway pc =>
    cases pc with
    | read => obtain rfl := hfd _ h; exact .reading hmem
    | write => cases h
  | _ => cases h

/-- Unread bytes of an accepted client are always in somebody's charge. -/
theorem no_bytes_left (h : system.Reach ReadSucceeds (initial n p k) s)
    (hx : (s.shared.kernel.files x).isClient) (hne : (s.shared.kernel.files x).received ≠ []) :
    InCharge n s x (s.shared.kernel.files x).fd := by
  have hfd : ∀ fd, s.shared.kernel.descriptors fd = some x → fd = (s.shared.kernel.files x).fd :=
    fun fd hd => ((Reach.kernelOk h).number fd x hd).2.1.symm
  rcases Reach.unread h x ⟨hx, hne⟩ with (hready | ⟨r, m, hask, hm⟩) | ⟨t, f, hheld, hch⟩
  · exact .marked hready
  · obtain ⟨hreads, c, hc, hserves⟩ := hask.gateway hfd
    exact .asked hc hserves hreads (.inl hm)
  · exact inCharge_of_willRead hfd hheld hch

def Op.emplaced : Op → Option Connection
  | .emplaceConnection _ c => some c
  | _ => none

def Op.erasesService : Op → Bool
  | .eraseService _ => true
  | _ => false

/-- No call fails and no service is erased: a part of `ReadSucceeds` that a
run can decide. -/
def Smooth (s : State) (l : Label) : Prop :=
  NoClose s l ∧ l.choice ≠ .failed ∧ l.choice.isEnd = false ∧ l.op.erasesService = false ∧
    ∀ c ∈ l.op.emplaced, ∃ r ∈ s.shared.serviceMap.find c.serviceId,
      (s.shared.services r).cls = .gateway

instance (s : State) (l : Label) : Decidable (Smooth s l) := by
  unfold Smooth; infer_instance

theorem Smooth.readSucceeds (h : Smooth s l) : ReadSucceeds s l := by
  obtain ⟨hno, hok, hend, herase, howner⟩ := h
  refine ⟨hno, ?_, ?_, ?_, ?_⟩
  · intro hf; exact absurd hf hok
  · intro he; rw [hend] at he; cases he
  · intro fd c hop _
    obtain ⟨r, hr, hcls⟩ := howner c (by rw [hop]; rfl)
    exact ⟨r, hr, hcls⟩
  · intro k c _ _ hop; rw [hop] at herase; cases herase

/-- Bytes whose report is on its way through the gateway's queue. -/
theorem no_bytes_left_queued : ∃ s, system.Reach ReadSucceeds (initial 1 (fun i => 1 <<< i) 1) s ∧
    (s.shared.kernel.files 1).received = [104] ∧ (s.shared.kernel.files 1).ready = false ∧
    InCharge 1 s 1 (s.shared.kernel.files 1).fd := by
  have h : ((system.run Smooth (initial 1 (fun i => 1 <<< i) 1)
      (creates 3 ++ listens 3 5 0 ++ [(2, .connect 0)] ++ polls 1 5 0 ++ accepts 1 6 [] ++
        steps 1 6 ++ [(2, .deliver 1 [104])] ++ polls 1 6 1 ++ steps 1 2)).any fun s =>
        (s.shared.kernel.files 1).isClient = true ∧ (s.shared.kernel.files 1).received = [104] ∧
        (s.shared.kernel.files 1).ready = false) = true := by decide +kernel
  obtain ⟨s, hs, hclient, hbytes, hready⟩ := Machine.exists_of_run h
  have hr := Machine.Reach.mono hs fun _ _ hc => hc.readSucceeds
  exact ⟨s, hr, hbytes, hready, no_bytes_left hr hclient (by simp [hbytes])⟩

end XianNet
