import XianNet.System

/-!
# The steps of the sockets

Everything one step of the socket worker, of the connection functions and of
the gateway's reads and writes can do, read off the step functions once.
-/

namespace XianNet

variable {σ : Shared}

inductive SocketStep (σ : Shared) : SocketPc → Op → List Frame → Prop
  | wait : (events.map (·.file)).Nodup → (∀ e ∈ events, σ.kernel.reports e) →
      SocketStep σ .epollWait (.epollWait events) [.socket (.dispatch events)]
  | done : SocketStep σ (.dispatch []) .silent [.socket .epollWait]
  | unknown : σ.connectionMap.find e.fd.toUInt32 = none →
      SocketStep σ (.dispatch (e :: events)) .silent [.socket (.dispatch events)]
  | event : σ.connectionMap.find e.fd.toUInt32 = some c →
      SocketStep σ (.dispatch (e :: events)) .silent
        (onEventFrames c e ++ [.socket (.dispatch events)])

theorem SocketPc.step_cases {pc : SocketPc} (h : pc.step σ c = some (op, fs)) :
    SocketStep σ pc op fs := by
  unfold SocketPc.step at h
  split at h
  · split at h
    · rename_i hw
      cases h
      exact .wait hw.2.1 (List.all_eq_true.mp hw.2.2)
    · cases h
  · cases h; exact .done
  · split at h <;> cases h
    · rename_i hf; exact .unknown hf
    · rename_i hf; exact .event hf
  · cases h

/-- What `OnEvent` goes on with. -/
theorem onEventFrames_cases (hg : g ∈ onEventFrames c e) :
    (c.type = .listen ∧ e.epollIn = true ∧ g = .accept (.accept c)) ∨
      (c.type = .client ∧ g = .send (.find c.serviceId (rwMessage c e))) := by
  unfold onEventFrames at hg
  split at hg <;> rename_i ht <;> split at hg
  · rename_i he; exact .inl ⟨ht, he, List.mem_singleton.mp hg⟩
  · cases hg
  · exact .inr ⟨ht, List.mem_singleton.mp hg⟩
  · cases hg

/-- What takes the place of the event loop at an event. -/
theorem eventFrames_cases (hg : g ∈ onEventFrames c e ++ [.socket (.dispatch events)]) :
    (c.type = .listen ∧ e.epollIn = true ∧ g = .accept (.accept c)) ∨
      (c.type = .client ∧ g = .send (.find c.serviceId (rwMessage c e))) ∨
      g = .socket (.dispatch events) := by
  rcases List.mem_append.mp hg with hg | hg
  · exact (onEventFrames_cases hg).imp_right .inl
  · exact .inr (.inr (List.mem_singleton.mp hg))

theorem epollAddStep_cases (h : epollAddStep σ fd c = some op) :
    (c = .failed ∧ op = .silent) ∨
      ∃ f, c = .ok ∧ σ.kernel.descriptors fd = some f ∧ (σ.kernel.files f).interest = none ∧
        op = .epollAdd f := by
  unfold epollAddStep at h
  split at h
  · split at h
    · rename_i f hf
      split at h
      · rename_i hi; cases h; exact .inr ⟨f, rfl, hf, hi, rfl⟩
      · cases h
    · cases h
  · cases h; exact .inl ⟨rfl, rfl⟩
  · cases h

inductive AcceptStep (σ : Shared) : AcceptPc → Choice → Op → List Frame → Prop
  | accepted : σ.kernel.descriptors conn.fd = some l → 0 < (σ.kernel.files l).backlog →
      σ.kernel.free fd →
      AcceptStep σ (.accept conn) (.accepted fd received) (.accept l fd received)
        [.accept (.addConnection fd conn)]
  | failed : AcceptStep σ (.accept conn) .failed .silent [.accept (.addConnection (-1) conn)]
  | addConnection : AcceptStep σ (.addConnection fd conn) c
      (.emplaceConnection fd ⟨.client, fd, conn.serviceId, σ.kernel.descriptors fd⟩)
      [.accept (.addEvent fd conn)]
  | added : σ.kernel.descriptors fd = some f → (σ.kernel.files f).interest = none →
      AcceptStep σ (.addEvent fd conn) .ok (.epollAdd f)
        [.send (.find conn.serviceId (acceptMessage conn fd))]
  | notAdded : AcceptStep σ (.addEvent fd conn) .failed .silent
      [.send (.find conn.serviceId (acceptMessage conn fd))]

theorem AcceptPc.step_cases {pc : AcceptPc} (h : pc.step σ c = some (op, fs)) :
    AcceptStep σ pc c op fs := by
  unfold AcceptPc.step at h
  split at h
  · split at h
    · rename_i hl
      split at h
      · rename_i hc; cases h; exact .accepted hl hc.2.1 hc.2.2
      · cases h
    · cases h
  · cases h; exact .failed
  · cases h; exact .addConnection
  · obtain ⟨op', hadd, heq⟩ := Option.map_eq_some_iff.mp h
    cases heq
    rcases epollAddStep_cases hadd with ⟨rfl, rfl⟩ | ⟨f, rfl, hf, hi, rfl⟩
    · exact .notAdded
    · exact .added hf hi
  · cases h

inductive ListenStep (σ : Shared) : ListenPc → Choice → Op → List Frame → Prop
  | opened : σ.kernel.free fd → 0 < fd →
      ListenStep σ (.socket port serviceId) (.opened fd) (.openSocket fd)
        [.listen (.bind fd port serviceId)]
  | openedZero : σ.kernel.free fd → fd ≤ 0 →
      ListenStep σ (.socket port serviceId) (.opened fd) (.openSocket fd) [.listen (.ret (-1))]
  | openFailed : ListenStep σ (.socket port serviceId) .failed .silent [.listen (.ret (-1))]
  | bound {port : UInt32} : σ.kernel.descriptors fd = some f →
      port.toUInt16 = 0 ∨ p = port.toUInt16 → p ≠ 0 →
      ListenStep σ (.bind fd port serviceId) (.bound p) (.bind f p) [.listen (.listen fd serviceId)]
  | bindFailed : ListenStep σ (.bind fd port serviceId) .failed .silent [.listen (.ret (-1))]
  | listening : σ.kernel.descriptors fd = some f →
      ListenStep σ (.listen fd serviceId) .ok (.listen f) [.listen (.addConnection fd serviceId)]
  | listenFailed : ListenStep σ (.listen fd serviceId) .failed .silent [.listen (.ret (-1))]
  | addConnection : ListenStep σ (.addConnection fd serviceId) c
      (.emplaceConnection fd ⟨.listen, fd, serviceId, σ.kernel.descriptors fd⟩)
      [.listen (.addEvent fd)]
  | added : σ.kernel.descriptors fd = some f → (σ.kernel.files f).interest = none →
      ListenStep σ (.addEvent fd) .ok (.epollAdd f) [.listen (.ret fd)]
  | notAdded : ListenStep σ (.addEvent fd) .failed .silent [.listen (.ret fd)]
  | ret : ListenStep σ (.ret r) c (.listenReturn r) []

theorem ListenPc.step_cases {pc : ListenPc} (h : pc.step σ c = some (op, fs)) :
    ListenStep σ pc c op fs := by
  unfold ListenPc.step at h
  split at h
  · rename_i fd
    split at h
    · rename_i hfree
      cases h
      by_cases hle : fd ≤ 0
      · simpa [hle] using ListenStep.openedZero hfree hle
      · simpa [hle] using ListenStep.opened hfree (Int32.not_le.mp hle)
    · cases h
  · cases h; exact .openFailed
  · split at h
    · rename_i hp
      obtain ⟨f, hf, heq⟩ := Option.map_eq_some_iff.mp h
      cases heq; exact .bound hf hp.1 hp.2
    · cases h
  · cases h; exact .bindFailed
  · obtain ⟨f, hf, heq⟩ := Option.map_eq_some_iff.mp h
    cases heq; exact .listening hf
  · cases h; exact .listenFailed
  · cases h; exact .addConnection
  · obtain ⟨op', hadd, heq⟩ := Option.map_eq_some_iff.mp h
    cases heq
    rcases epollAddStep_cases hadd with ⟨rfl, rfl⟩ | ⟨f, rfl, hf, hi, rfl⟩
    · exact .notAdded
    · exact .added hf hi
  · cases h; exact .ret
  · cases h

inductive CloseStep (σ : Shared) : ClosePc → Op → List Frame → Prop
  | erase : CloseStep σ (.erase fd) (.eraseConnection fd)
      [.close (.close fd (σ.connectionMap.find fd).isSome)]
  | closeErased : CloseStep σ (.close fd true) (.close fd.toInt32) [.close (.removeEvent fd)]
  | close : CloseStep σ (.close fd false) (.close fd.toInt32) []
  | removeNone : σ.kernel.descriptors fd.toInt32 = none → CloseStep σ (.removeEvent fd) .silent []
  | remove : σ.kernel.descriptors fd.toInt32 = some f →
      CloseStep σ (.removeEvent fd) (.epollDel f) []

theorem ClosePc.step_cases {pc : ClosePc} (h : pc.step σ = (op, fs)) : CloseStep σ pc op fs := by
  cases pc with
  | erase => cases h; exact .erase
  | close fd succ =>
    cases succ <;> cases h
    · exact .close
    · exact .closeErased
  | removeEvent fd =>
    simp only [ClosePc.step] at h
    split at h <;> cases h
    · rename_i hf; exact .removeNone hf
    · rename_i f hf; exact .remove hf

inductive GatewayStep (σ : Shared) : GatewayPc → Choice → Op → List Frame → Prop
  | readClosed : σ.kernel.descriptors fd = none →
      GatewayStep σ (.read fd result) (.result n) .silent []
  | readEnd : σ.kernel.descriptors fd = some f → n ≤ 0 →
      GatewayStep σ (.read fd result) (.result n) .silent []
  | readMore {n : Int} : σ.kernel.descriptors fd = some f → 0 < n →
      n ≤ (σ.kernel.files f).received.length →
      GatewayStep σ (.read fd result) (.result n) (.read f n.toNat)
        [.gateway (.read fd (result ++ (σ.kernel.files f).received.take n.toNat))]
  | writeNothing : GatewayStep σ (.write fd content) (.result n) .silent []
  | written : σ.kernel.descriptors fd = some f →
      GatewayStep σ (.write fd content) (.result n) (.write f bytes) []

theorem GatewayPc.step_cases {pc : GatewayPc} (h : pc.step σ c = some (op, fs)) :
    GatewayStep σ pc c op fs := by
  unfold GatewayPc.step at h
  split at h
  · split at h
    · rename_i hf; cases h; exact .readClosed hf
    · rename_i f hf
      simp only at h
      split at h
      · rename_i hn; cases h; exact .readEnd hf hn
      · rename_i hn
        split at h
        · rename_i hle; cases h; exact .readMore hf (Int.not_le.mp hn) hle.2
        · cases h
  · split at h
    · cases h; exact .writeNothing
    · rename_i f hf
      simp only at h
      split at h
      · cases h; exact .writeNothing
      · split at h
        · cases h; exact .written hf
        · cases h
  · cases h

inductive NetworkStep (σ : Shared) : Op → List Frame → Prop
  | connect : (σ.kernel.files f).listening = true →
      σ.kernel.descriptors (σ.kernel.files f).fd = some f → NetworkStep σ (.connect f) [.network]
  | deliver : (σ.kernel.files f).isClient = true →
      σ.kernel.descriptors (σ.kernel.files f).fd = some f → bytes ≠ [] →
      (σ.kernel.files f).ended = false → NetworkStep σ (.deliver f bytes) [.network]
  | finish : (σ.kernel.files f).isClient = true →
      σ.kernel.descriptors (σ.kernel.files f).fd = some f → NetworkStep σ (.finish f) [.network]
  | drain : (σ.kernel.files f).isClient = true →
      σ.kernel.descriptors (σ.kernel.files f).fd = some f → NetworkStep σ (.drain f) [.network]

theorem networkStep_cases (h : networkStep σ c = some (op, fs)) : NetworkStep σ op fs := by
  unfold networkStep at h
  split at h
  · simp only at h
    split at h
    · rename_i hc; cases h; exact .connect hc.1 hc.2
    · cases h
  · simp only at h
    split at h
    · rename_i hc; cases h; exact .deliver hc.1 hc.2.1 hc.2.2.1 hc.2.2.2
    · cases h
  · simp only at h
    split at h
    · rename_i hc; cases h; exact .finish hc.1 hc.2
    · cases h
  · simp only at h
    split at h
    · rename_i hc; cases h; exact .drain hc.1 hc.2
    · cases h
  · cases h

inductive ModifyStep (σ : Shared) (fd : Int32) (canWrite : Bool) : Op → List Frame → Prop
  | notModified : ModifyStep σ fd canWrite .silent []
  | modified : σ.kernel.descriptors fd = some f → (σ.kernel.files f).interest ≠ none →
      ModifyStep σ fd canWrite (.epollMod f canWrite) []

theorem modifyEvent_cases (h : Frame.step σ (.modifyEvent fd canWrite) c = some (op, fs)) :
    ModifyStep σ fd canWrite op fs := by
  simp only [Frame.step, modifyEventOp] at h
  cases h
  split
  · exact .notModified
  · rename_i f hf
    split
    · exact .notModified
    · rename_i hi; exact .modified hf hi

end XianNet
