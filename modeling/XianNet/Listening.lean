import XianNet.Interleaving.History
import XianNet.Descriptors

/-!
# One call of `Listen`

Four system calls may fail, each after something else was created. `Listened`
is every way through a call that no other thread interleaves with. Only the
first failure leaves nothing behind, and the last one is not even reported
(`listen_clean_iff`).
-/

namespace XianNet

open Interleaving

variable {σ σ' : Shared} {s s' : State} {tr : List Label} {port serviceId : UInt32} {r : Int32}

-- ---------------------------------------------------------------------------
-- A call
-- ---------------------------------------------------------------------------

/-- The result of `Listen`, in the step that returns it. -/
def Op.returned : Op → Option Int32
  | .listenReturn r => some r
  | _ => none

/-- Thread `t` goes on with a call of `Listen` until it returns `r`, and no
other thread moves. -/
structure ListenRun (t : Nat) (pc : ListenPc) (s : State) (tr : List Label) (r : Int32)
    (s' : State) : Prop where
  call : ∃ rest, s.threads[t]? = some (.listen pc :: rest)
  run : system.Exec (fun _ l => l.thread = t) s tr s'
  returns : ∃ pre l, tr = pre ++ [l] ∧ l.op.returned = some r ∧ ∀ l' ∈ pre, l'.op.returned = none

/-- The result of the system call in a step of `Listen`, if there is one. -/
def outcome (l : Label) : Option Choice :=
  match l.frame with
  | .listen (.addConnection ..) | .listen (.ret _) => none
  | _ => some l.choice

def outcomes (tr : List Label) : List Choice := tr.filterMap outcome

theorem outcomes_call {c : Choice} (h : outcome l = some c) :
    outcomes (l :: tr) = c :: outcomes tr := by
  simp [outcomes, h]

theorem outcomes_step (h : outcome l = none) : outcomes (l :: tr) = outcomes tr := by
  simp [outcomes, h]

theorem ListenStep.returned (h : ListenStep σ pc c op fs) :
    (∃ r, pc = .ret r ∧ op = .listenReturn r ∧ fs = []) ∨
      (op.returned = none ∧ ∃ pc', fs = [.listen pc']) := by
  cases h with
  | ret => exact .inl ⟨_, rfl, rfl, rfl⟩
  | _ => exact .inr ⟨rfl, _, rfl⟩

/-- The call returns, or goes on by one step. -/
theorem ListenRun.step (h : ListenRun t pc s tr r s') :
    ∃ c op tr', tr = ⟨t, .listen pc, c, op⟩ :: tr' ∧
      ((pc = .ret r ∧ tr' = [] ∧ s'.shared = s.shared) ∨
        ∃ pc' s₁, ListenStep s.shared pc c op [.listen pc'] ∧ s₁.shared = s.shared.apply op ∧
          ListenRun t pc' s₁ tr' r s') := by
  obtain ⟨⟨rest, htop⟩, hrun, pre, last, rfl, hlast, hpre⟩ := h
  obtain ⟨l, tr', htr⟩ : ∃ l tr', pre ++ [last] = l :: tr' := List.exists_cons_of_ne_nil (by simp)
  rw [htr] at hrun
  obtain ⟨s₁, hthread, hs, hrun'⟩ := hrun.cons
  obtain ⟨rest', fs, htop', hm, hnext, hsh⟩ := hs.moves
  obtain ⟨t', f, c, op⟩ := l
  obtain rfl : t' = t := hthread
  simp only [htop, Option.some.injEq, List.cons.injEq] at htop'
  obtain ⟨rfl, rfl⟩ := htop'
  have hstep := ListenPc.step_cases hm
  refine ⟨c, op, tr', htr, ?_⟩
  cases pre with
  | nil =>
    obtain ⟨rfl, rfl⟩ := List.cons.inj htr
    rcases hstep.returned with ⟨r', rfl, hop, -⟩ | ⟨hnone, -⟩
    · rw [hop] at hlast hsh
      cases hlast
      rw [hrun'.nil_eq]
      exact .inl ⟨rfl, rfl, hsh⟩
    · rw [hnone] at hlast; cases hlast
  | cons l pre =>
    obtain ⟨rfl, rfl⟩ := List.cons.inj htr
    rcases hstep.returned with ⟨r', -, hop, -⟩ | ⟨-, pc', rfl⟩
    · have hnone := hpre _ List.mem_cons_self
      rw [hop] at hnone
      cases hnone
    · exact .inr ⟨pc', s₁, hstep, hsh, ⟨rest, hnext⟩, hrun', pre, last, rfl, hlast,
        fun l' hl' => hpre l' (List.mem_cons_of_mem _ hl')⟩

-- ---------------------------------------------------------------------------
-- The ways through a call
-- ---------------------------------------------------------------------------

/-- The socket is open, bound and listening, and `AddConnection` was called. -/
def Shared.setUp (σ : Shared) (fd : Int32) (p : UInt16) (serviceId : UInt32) : Shared :=
  (((σ.apply (.openSocket fd)).apply (.bind σ.kernel.allocated p)).apply
    (.listen σ.kernel.allocated)).apply
      (.emplaceConnection fd ⟨.listen, fd, serviceId, some σ.kernel.allocated⟩)

/-- What the system calls return, what `Listen` returns and what it leaves. -/
inductive Listened (σ : Shared) (port serviceId : UInt32) :
    List Choice → Int32 → Shared → Prop
  | noSocket : Listened σ port serviceId [.failed] (-1) σ
  | zero : σ.kernel.free fd →
      Listened σ port serviceId [.opened fd] (-1) (σ.apply (.openSocket fd))
  | notBound : σ.kernel.free fd →
      Listened σ port serviceId [.opened fd, .failed] (-1) (σ.apply (.openSocket fd))
  | notListening : σ.kernel.free fd →
      Listened σ port serviceId [.opened fd, .bound p, .failed] (-1)
        ((σ.apply (.openSocket fd)).apply (.bind σ.kernel.allocated p))
  | registered : 0 < fd → port.toUInt16 = 0 ∨ p = port.toUInt16 → p ≠ 0 →
      Listened σ port serviceId [.opened fd, .bound p, .ok, .ok] fd
        ((σ.setUp fd p serviceId).apply (.epollAdd σ.kernel.allocated))
  | notRegistered : 0 < fd →
      Listened σ port serviceId [.opened fd, .bound p, .ok, .failed] fd (σ.setUp fd p serviceId)

theorem descriptors_openSocket (σ : Shared) (fd fd' : Int32) :
    (σ.apply (.openSocket fd)).kernel.descriptors fd' =
      if fd' = fd then some σ.kernel.allocated else σ.kernel.descriptors fd' :=
  Kernel.descriptors_openFile

theorem ListenRun.ret_inv (h : ListenRun t (.ret r₀) s tr r s') :
    r = r₀ ∧ outcomes tr = [] ∧ s'.shared = s.shared := by
  obtain ⟨c, op, tr', rfl, ⟨heq, rfl, hsh⟩ | ⟨pc', s₁, hstep, -, -⟩⟩ := h.step
  · cases heq
    exact ⟨rfl, rfl, hsh⟩
  · cases hstep

theorem ListenRun.addEvent_inv (h : ListenRun t (.addEvent fd) s tr r s') :
    r = fd ∧ ((∃ f, s.shared.kernel.descriptors fd = some f ∧ outcomes tr = [.ok] ∧
        s'.shared = s.shared.apply (.epollAdd f)) ∨
      (outcomes tr = [.failed] ∧ s'.shared = s.shared)) := by
  obtain ⟨c, op, tr', rfl, ⟨hpc, -⟩ | ⟨pc', s₁, hstep, hsh₁, h₁⟩⟩ := h.step
  · cases hpc
  rw [outcomes_call rfl]
  cases hstep with
  | @added _ f hd =>
    obtain ⟨rfl, hout, hsh⟩ := h₁.ret_inv
    exact ⟨rfl, .inl ⟨f, hd, by rw [hout], hsh.trans hsh₁⟩⟩
  | notAdded =>
    obtain ⟨rfl, hout, hsh⟩ := h₁.ret_inv
    exact ⟨rfl, .inr ⟨by rw [hout], hsh.trans hsh₁⟩⟩

theorem ListenRun.listen_inv (h : ListenRun t (.listen fd serviceId) s tr r s')
    (hd : s.shared.kernel.descriptors fd = some f) :
    (r = -1 ∧ outcomes tr = [.failed] ∧ s'.shared = s.shared) ∨
      ∃ s₁ tr₁, outcomes tr = .ok :: outcomes tr₁ ∧ ListenRun t (.addEvent fd) s₁ tr₁ r s' ∧
        s₁.shared = (s.shared.apply (.listen f)).apply
          (.emplaceConnection fd ⟨.listen, fd, serviceId, some f⟩) := by
  obtain ⟨c, op, tr, rfl, ⟨hpc, -⟩ | ⟨pc, s₁, hlisten, hsh₁, h₁⟩⟩ := h.step
  · cases hpc
  rw [outcomes_call rfl]
  cases hlisten with
  | listenFailed =>
    obtain ⟨rfl, hout, hsh⟩ := h₁.ret_inv
    exact .inl ⟨rfl, by rw [hout], hsh.trans hsh₁⟩
  | listening hd' =>
    obtain rfl := Option.some.inj (hd.symm.trans hd')
    obtain ⟨c, op, tr, rfl, ⟨hpc, -⟩ | ⟨pc, s₂, hadd, hsh₂, h₂⟩⟩ := h₁.step
    · cases hpc
    rw [outcomes_step rfl]
    cases hadd
    have hd₁ : s₁.shared.kernel.descriptors fd = some f := by rw [hsh₁]; exact hd
    rw [hd₁, hsh₁] at hsh₂
    exact .inr ⟨s₂, tr, rfl, h₂, hsh₂⟩

theorem ListenRun.bind_inv (h : ListenRun t (.bind fd port serviceId) s tr r s')
    (hd : s.shared.kernel.descriptors fd = some f) :
    (r = -1 ∧ outcomes tr = [.failed] ∧ s'.shared = s.shared) ∨
      ∃ p s₁ tr₁, (port.toUInt16 = 0 ∨ p = port.toUInt16) ∧ p ≠ 0 ∧
        outcomes tr = .bound p :: outcomes tr₁ ∧ ListenRun t (.listen fd serviceId) s₁ tr₁ r s' ∧
        s₁.shared = s.shared.apply (.bind f p) := by
  obtain ⟨c, op, tr, rfl, ⟨hpc, -⟩ | ⟨pc, s₁, hbind, hsh₁, h₁⟩⟩ := h.step
  · cases hpc
  rw [outcomes_call rfl]
  cases hbind with
  | bindFailed =>
    obtain ⟨rfl, hout, hsh⟩ := h₁.ret_inv
    exact .inl ⟨rfl, by rw [hout], hsh.trans hsh₁⟩
  | bound hd' hport hne =>
    obtain rfl := Option.some.inj (hd.symm.trans hd')
    exact .inr ⟨_, s₁, tr, hport, hne, rfl, h₁, hsh₁⟩

theorem ListenRun.socket_inv (h : ListenRun t (.socket port serviceId) s tr r s') :
    (r = -1 ∧ outcomes tr = [.failed] ∧ s'.shared = s.shared) ∨
      ∃ fd, s.shared.kernel.free fd ∧
        ((r = -1 ∧ outcomes tr = [.opened fd] ∧ s'.shared = s.shared.apply (.openSocket fd)) ∨
          ∃ s₁ tr₁, 0 < fd ∧ outcomes tr = .opened fd :: outcomes tr₁ ∧
            ListenRun t (.bind fd port serviceId) s₁ tr₁ r s' ∧
            s₁.shared = s.shared.apply (.openSocket fd)) := by
  obtain ⟨c, op, tr, rfl, ⟨hpc, -⟩ | ⟨pc, s₁, hsocket, hsh₁, h₁⟩⟩ := h.step
  · cases hpc
  rw [outcomes_call rfl]
  cases hsocket with
  | openFailed =>
    obtain ⟨rfl, hout, hsh⟩ := h₁.ret_inv
    exact .inl ⟨rfl, by rw [hout], hsh.trans hsh₁⟩
  | openedZero hfree =>
    obtain ⟨rfl, hout, hsh⟩ := h₁.ret_inv
    exact .inr ⟨_, hfree, .inl ⟨rfl, by rw [hout], hsh.trans hsh₁⟩⟩
  | opened hfree hpos => exact .inr ⟨_, hfree, .inr ⟨s₁, tr, hpos, rfl, h₁, hsh₁⟩⟩

theorem ListenRun.listened (h : ListenRun t (.socket port serviceId) s tr r s') :
    Listened s.shared port serviceId (outcomes tr) r s'.shared := by
  rcases h.socket_inv with
    ⟨rfl, hout, hsh⟩ | ⟨fd, hfree, ⟨rfl, hout, hsh⟩ | ⟨s₁, tr₁, hpos, hout, h, hsh₁⟩⟩
  · rw [hout, hsh]; exact .noSocket
  · rw [hout, hsh]; exact .zero hfree
  have hd₁ : s₁.shared.kernel.descriptors fd = some s.shared.kernel.allocated := by
    rw [hsh₁, descriptors_openSocket, if_pos rfl]
  rcases h.bind_inv hd₁ with ⟨rfl, hout₁, hsh⟩ | ⟨p, s₂, tr₂, hport, hne, hout₁, h, hsh₂⟩
  · rw [hout, hout₁, hsh, hsh₁]; exact .notBound hfree
  have hd₂ : s₂.shared.kernel.descriptors fd = some s.shared.kernel.allocated := by
    rw [hsh₂]; exact hd₁
  rcases h.listen_inv hd₂ with ⟨rfl, hout₂, hsh⟩ | ⟨s₃, tr₃, hout₂, h, hsh₃⟩
  · rw [hout, hout₁, hout₂, hsh, hsh₂, hsh₁]; exact .notListening hfree
  have hd₃ : s₃.shared.kernel.descriptors fd = some s.shared.kernel.allocated := by
    rw [hsh₃]; exact hd₂
  rw [hsh₂, hsh₁] at hsh₃
  obtain ⟨rfl, ⟨f, hd, hout₃, hsh⟩ | ⟨hout₃, hsh⟩⟩ := h.addEvent_inv
  · obtain rfl := Option.some.inj (hd₃.symm.trans hd)
    rw [hout, hout₁, hout₂, hout₃, hsh, hsh₃]
    exact .registered hpos hport hne
  · rw [hout, hout₁, hout₂, hout₃, hsh, hsh₃]
    exact .notRegistered hpos

-- ---------------------------------------------------------------------------
-- All or nothing
-- ---------------------------------------------------------------------------

/-- The socket of number `r` is set up for the port and the service. -/
def ListensOn (σ : Shared) (r : Int32) (port serviceId : UInt32) : Prop :=
  ∃ f c, σ.kernel.descriptors r = some f ∧
    (σ.kernel.files f).port.map (·.toNat) = some port.toNat ∧ (σ.kernel.files f).listening ∧
    (σ.kernel.files f).interest.isSome ∧ σ.connectionMap.find r.toUInt32 = some c ∧
    c.type = .listen ∧ c.fd = r ∧ c.serviceId = serviceId

/-- The open descriptors, `connection_map_` and the epoll set are the same. -/
structure Unchanged (σ σ' : Shared) : Prop where
  descriptors : σ'.kernel.descriptors = σ.kernel.descriptors
  connectionMap : σ'.connectionMap = σ.connectionMap
  epoll : ∀ f, (σ'.kernel.files f).interest = (σ.kernel.files f).interest

/-- What a call of `Listen` that returned `r` should leave. -/
def AllOrNothing (σ σ' : Shared) (port serviceId : UInt32) (r : Int32) : Prop :=
  if r = -1 then Unchanged σ σ' else ListensOn σ' r port serviceId

/-- `socket` fails; or no call fails, the port has 16 bits and is not 0, and
`connection_map_` has no other entry under the number. -/
def Clean (σ : Shared) (port serviceId : UInt32) (results : List Choice) : Prop :=
  results = [.failed] ∨ ∃ fd p, results = [.opened fd, .bound p, .ok, .ok] ∧
    0 < port.toNat ∧ port.toNat < 2 ^ 16 ∧ ∀ c ∈ σ.connectionMap.find fd.toUInt32,
      c.type = .listen ∧ c.fd = fd ∧ c.serviceId = serviceId

theorem not_unchanged (hfree : σ.kernel.free fd)
    (hd : σ'.kernel.descriptors fd = some f) : ¬ Unchanged σ σ' := by
  intro h
  rw [h.descriptors, (Kernel.free_iff.mp hfree).2] at hd
  cases hd

theorem toNat_bound {p : UInt16} (hport : port.toUInt16 = 0 ∨ p = port.toUInt16) (hne : p ≠ 0) :
    p.toNat = port.toNat ↔ 0 < port.toNat ∧ port.toNat < 2 ^ 16 := by
  have hpos : 0 < p.toNat := Nat.pos_of_ne_zero fun h => hne (UInt16.toNat_inj.mp h)
  have hmod : port.toUInt16.toNat = port.toNat % 2 ^ 16 := UInt32.toNat_toUInt16 port
  have hlt := p.toNat_lt
  constructor
  · intro h; omega
  · rintro ⟨h0, h16⟩
    rcases hport with h | rfl
    · rw [h] at hmod
      have hzero : (0 : UInt16).toNat = 0 := rfl
      omega
    · omega

theorem files_setUp (σ : Shared) (fd : Int32) (p : UInt16) (serviceId : UInt32) :
    (σ.setUp fd p serviceId).kernel.files σ.kernel.allocated =
      { fd, isClient := false, port := some p, listening := true } := by
  simp [Shared.setUp, Shared.apply, Shared.updateFile, Kernel.files_updateFile,
    Kernel.files_openFile]

theorem descriptors_setUp (σ : Shared) (fd : Int32) (p : UInt16) (serviceId : UInt32) :
    (σ.setUp fd p serviceId).kernel.descriptors fd = some σ.kernel.allocated :=
  (descriptors_openSocket σ fd fd).trans (if_pos rfl)

theorem find_setUp (σ : Shared) (fd : Int32) (p : UInt16) (serviceId : UInt32) :
    (σ.setUp fd p serviceId).connectionMap.find fd.toUInt32 =
      some ((σ.connectionMap.find fd.toUInt32).getD
        ⟨.listen, fd, serviceId, some σ.kernel.allocated⟩) := by
  simp only [Shared.setUp, Shared.apply, Shared.updateFile, RwlockUnorderedMap.find_emplace,
    true_and]
  cases σ.connectionMap.find fd.toUInt32 <;> rfl

theorem listensOn_registered_iff :
    ListensOn ((σ.setUp fd p serviceId).apply (.epollAdd σ.kernel.allocated)) fd port serviceId ↔
      p.toNat = port.toNat ∧ ∀ c ∈ σ.connectionMap.find fd.toUInt32,
        c.type = .listen ∧ c.fd = fd ∧ c.serviceId = serviceId := by
  have hd := descriptors_setUp σ fd p serviceId
  have hfile := files_setUp σ fd p serviceId
  have hfind := find_setUp σ fd p serviceId
  constructor
  · rintro ⟨f, c, hd', hport, -, -, hfind', hc⟩
    obtain rfl := Option.some.inj (hd.symm.trans hd')
    obtain rfl := Option.some.inj (hfind.symm.trans hfind')
    simp only [Shared.apply, Kernel.epollAdd, Kernel.files_updateFile, if_true, hfile] at hport
    refine ⟨by simpa using hport, ?_⟩
    intro c hc'
    rw [hc'] at hc
    exact hc
  · rintro ⟨hport, hc⟩
    refine ⟨_, _, hd, ?_, ?_, ?_, hfind, ?_⟩
    · simp [Shared.apply, Kernel.epollAdd, Kernel.files_updateFile, hfile, hport]
    · simp [Shared.apply, Kernel.epollAdd, Kernel.files_updateFile, hfile]
    · simp [Shared.apply, Kernel.epollAdd, Kernel.files_updateFile]
    · cases hold : σ.connectionMap.find fd.toUInt32 with
      | none => exact ⟨rfl, rfl, rfl⟩
      | some c => exact hc c hold

theorem not_listensOn_unregistered :
    ¬ ListensOn (σ.setUp fd p serviceId) fd port serviceId := by
  rintro ⟨f, c, hd, -, -, hreg, -⟩
  obtain rfl := Option.some.inj ((descriptors_setUp σ fd p serviceId).symm.trans hd)
  rw [files_setUp] at hreg
  cases hreg

theorem ne_failed {fd : Int32} (hpos : 0 < fd) : fd ≠ -1 := by
  rintro rfl
  exact absurd hpos (by decide)

/-- The socket stays open behind an error. -/
theorem Listened.leaks_iff (hfree : σ.kernel.free fd)
    (hd : σ'.kernel.descriptors fd = some σ.kernel.allocated)
    (hresults : results.length < 4) (hne : results ≠ [.failed]) :
    AllOrNothing σ σ' port serviceId (-1) ↔ Clean σ port serviceId results := by
  rw [AllOrNothing, if_pos rfl]
  constructor
  · intro h
    exact absurd h (not_unchanged hfree hd)
  · rintro (rfl | ⟨fd, p, rfl, -⟩)
    · exact absurd rfl hne
    · simp at hresults

theorem Listened.clean_iff (h : Listened σ port serviceId results r σ') :
    AllOrNothing σ σ' port serviceId r ↔ Clean σ port serviceId results := by
  cases h with
  | noSocket =>
    rw [AllOrNothing, if_pos rfl]
    exact ⟨fun _ => .inl rfl, fun _ => ⟨rfl, rfl, fun _ => rfl⟩⟩
  | @zero fd hfree | @notBound fd hfree | @notListening fd p hfree =>
    have hd : (σ.apply (.openSocket fd)).kernel.descriptors fd = some σ.kernel.allocated := by
      rw [descriptors_openSocket, if_pos rfl]
    exact Listened.leaks_iff hfree hd (by simp) (by simp)
  | @registered fd p hpos hport hne =>
    rw [AllOrNothing, if_neg (ne_failed hpos), listensOn_registered_iff, toNat_bound hport hne]
    simp [Clean, and_assoc]
  | @notRegistered fd p hpos =>
    rw [AllOrNothing, if_neg (ne_failed hpos)]
    simp [Clean, not_listensOn_unregistered]

/-- A call from the state after the first `Listen` of a run was entered, with
the given results of the system calls. -/
theorem exists_listenRun (acts results : List Choice) (r : Int32)
    (h : ((system.run Any (initial 1 (fun i => 1 <<< i) 1) [(3, .listen 8000 0)]).any fun s =>
      s.threads[3]? = some [.listen (.socket 8000 0), .caller] ∧
      (system.record (fun _ l => l.thread = 3) s (acts.map (3, ·))).any (fun q =>
        q.1.all (·.op.returned = none) ∧ (system.next q.2 3 .go).any (fun q' =>
          q'.1.op.returned = some r ∧ outcomes (q.1 ++ [q'.1]) = results ∧
          s.shared.connectionMap.find 5 = none) = true) = true) = true) :
    ∃ s tr s', system.Reach Any (initial 1 (fun i => 1 <<< i) 1) s ∧
      ListenRun 3 (.socket 8000 0) s tr r s' ∧ outcomes tr = results ∧
      s.shared.connectionMap.find 5 = none := by
  obtain ⟨s, hs, hcall, h⟩ := Machine.exists_of_run h
  obtain ⟨pre, s₁, hrun, hpre, h⟩ := Machine.exists_of_record h
  obtain ⟨l, s', hret, hthread, -, hr, hout⟩ := Machine.exists_of_next h
  exact ⟨s, pre ++ [l], s', hs, ⟨⟨_, hcall⟩, .step hrun hthread hret, pre, l, rfl, hr,
    fun l' hl' => by simpa using List.all_eq_true.mp hpre l' hl'⟩, hout⟩

/-- `bind` fails: `Listen` returns -1 and leaves its socket open. -/
theorem socket_leaked : ∃ s tr s', system.Reach Any (initial 1 (fun i => 1 <<< i) 1) s ∧
    ListenRun 3 (.socket 8000 0) s tr (-1) s' ∧
    ¬ AllOrNothing s.shared s'.shared 8000 0 (-1) := by
  obtain ⟨s, tr, s', hs, hrun, hout, -⟩ :=
    exists_listenRun [.opened 5, .failed] [.opened 5, .failed] (-1) (by decide +kernel)
  refine ⟨s, tr, s', hs, hrun, ?_⟩
  rw [hrun.listened.clean_iff, hout]
  simp [Clean]

/-- A call is all or nothing if and only if its first system call fails, or no
call fails and port, number and table are as `Clean` says. -/
theorem listen_clean_iff (h : ListenRun t (.socket port serviceId) s tr r s') :
    AllOrNothing s.shared s'.shared port serviceId r ↔
      Clean s.shared port serviceId (outcomes tr) :=
  h.listened.clean_iff

/-- The first `Listen` of a run. -/
theorem listen_clean_iff_first : ∃ s tr s',
    system.Reach Any (initial 1 (fun i => 1 <<< i) 1) s ∧
    ListenRun 3 (.socket 8000 0) s tr 5 s' ∧ ListensOn s'.shared 5 8000 0 := by
  obtain ⟨s, tr, s', hs, hrun, hout, hfind⟩ := exists_listenRun
    [.opened 5, .bound 8000, .ok, .go, .ok] [.opened 5, .bound 8000, .ok, .ok] 5 (by decide +kernel)
  refine ⟨s, tr, s', hs, hrun, (listen_clean_iff hrun).mpr (.inr ⟨5, 8000, hout, ?_⟩)⟩
  refine ⟨by decide, by decide, fun c hc => ?_⟩
  rw [show (5 : Int32).toUInt32 = 5 from rfl, hfind] at hc
  cases hc

end XianNet
