import XianNet.Interleaving.Rules
import XianNet.Registration

/-!
# Accepting clients

The listening socket is registered edge-triggered: several clients that
arrive before the event loop looks leave one ready mark, and `OnAccept` takes
one client per report. `client_left_behind` is the burst that leaves a client
in the backlog with no mark. Clients are only left behind that way
(`no_client_left`).
-/

namespace XianNet

open Interleaving

variable {σ : Shared} {C : State → Label → Prop} {s : State}

-- ---------------------------------------------------------------------------
-- Listening sockets
-- ---------------------------------------------------------------------------

structure ListenOk (k : Kernel) : Prop where
  kind : ∀ x, (k.files x).listening → (k.files x).isClient = false
  backlog : ∀ x, 0 < (k.files x).backlog → (k.files x).listening

theorem ListenOk.apply {op : Op} (hi : ListenOk σ.kernel)
    (hlisten : ∀ x, op = .listen x → (σ.kernel.files x).isClient = false)
    (hconnect : ∀ x, op = .connect x → (σ.kernel.files x).listening) :
    ListenOk (σ.apply op).kernel := by
  constructor <;> intro x <;> obtain ⟨file, heq, hstep⟩ := file_step σ op x <;> rw [heq]
  · cases hstep with
    | opened => exact fun _ => rfl
    | accepted => exact nofun
    | listening => exact fun _ => hlisten x rfl
    | _ => exact hi.kind x
  · cases hstep with
    | opened | accepted => exact fun hpos => absurd hpos (Nat.lt_irrefl 0)
    | listening => exact fun _ => rfl
    | connected => exact fun _ => hconnect x rfl
    | taken => exact fun hpos => hi.backlog x (Nat.lt_of_lt_of_le hpos (Nat.sub_le ..))
    | _ => exact hi.backlog x

theorem ListenOk.step (hi : ListenOk σ.kernel) (hn : NetworkOk σ (f ::ₘ R))
    (h : Frame.step σ f c = some (op, fs)) : ListenOk (σ.apply op).kernel := by
  cases Frame.step_cases h with
  | network hs => cases hs <;> exact hi.apply (by simp) (by simp_all)
  | listen hs =>
    cases hs with
    | listening hd =>
      refine hi.apply ?_ (by simp)
      rintro x heq
      cases heq
      obtain ⟨x', hd', hkind⟩ := (hn.pending _ (Multiset.mem_cons_self _ R) _ _ rfl).1
      rw [hd] at hd'
      cases hd'
      exact hkind
    | _ => exact hi.apply (by simp) (by simp)
  | socket hs | accept hs | close hs | gateway hs | modify hs =>
    cases hs <;> exact hi.apply (by simp) (by simp)
  | offline ho =>
    rw [kernel_apply ho.outside]
    exact hi

theorem Reach.listenOk (h : system.Reach Careful (initial n p k) s) : ListenOk s.shared.kernel := by
  refine h.invariant (I := fun σ _ => ListenOk σ.kernel) ⟨?_, ?_⟩
    fun s l fs R hr _ hF hm hi => hi.step (hF ▸ Reach.networkOk hr) hm
  · intro x _; rfl
  · intro x hpos; cases hpos

-- ---------------------------------------------------------------------------
-- Waiting clients
-- ---------------------------------------------------------------------------

/-- A client waits on a registered socket. -/
def Waits (k : Kernel) (x : FileRef) : Prop :=
  (k.files x).interest.isSome ∧ 0 < (k.files x).backlog

/-- Whoever comes new is marked. -/
theorem waits_apply {op : Op} (h : Waits (σ.apply op).kernel x)
    (hr : ((σ.apply op).kernel.files x).ready = false) : Waits σ.kernel x := by
  obtain ⟨file, heq, hstep⟩ := file_step σ op x
  unfold Waits at h ⊢
  rw [heq] at h hr
  obtain ⟨hint, hpos⟩ := h
  cases hstep with
  | opened | accepted | closed | removed => cases hint
  | taken => exact ⟨hint, Nat.lt_of_lt_of_le hpos (Nat.sub_le ..)⟩
  | added | modified => simp_all [File.readable]
  | connected => simp_all [Kernel.notify]
  | _ => exact ⟨hint, hpos⟩

-- ---------------------------------------------------------------------------
-- Who attends to them
-- ---------------------------------------------------------------------------

/-- The event loop holds a report of the socket, or is about to accept from it. -/
def Frame.attendsTo (k : Kernel) (x : FileRef) : Frame → Prop
  | .socket (.dispatch events) => ∃ e ∈ events, e.epollIn = true ∧ k.descriptors e.fd = some x
  | .accept (.accept c) => k.descriptors c.fd = some x
  | _ => False

/-- The number that `accept` is about to be called with. -/
def Frame.accepting : Frame → Option Int32
  | .accept (.accept c) => some c.fd
  | _ => none

/-- Nothing is closed, and `accept` succeeds while a client waits. -/
def AcceptSucceeds (s : State) (l : Label) : Prop :=
  NoClose s l ∧ (l.choice = .failed → ∀ fd ∈ l.frame.accepting,
    ∀ x ∈ s.shared.kernel.descriptors fd, (s.shared.kernel.files x).backlog = 0)

-- over the option: the found instance would go through all of `Int32`
instance (s : State) (l : Label) : Decidable (AcceptSucceeds s l) :=
  have : Decidable (∀ fd ∈ l.frame.accepting, ∀ x ∈ s.shared.kernel.descriptors fd,
      (s.shared.kernel.files x).backlog = 0) := Option.decidableForallMem _
  inferInstanceAs (Decidable (_ ∧ _))

/-- `accept` on a socket without a mark finds at most one client. -/
def TakesLast (s : State) (l : Label) : Prop :=
  ∀ fd ∈ l.frame.accepting, ∀ x ∈ s.shared.kernel.descriptors fd,
    (s.shared.kernel.files x).ready = false → (s.shared.kernel.files x).backlog ≤ 1

instance (s : State) (l : Label) : Decidable (TakesLast s l) := Option.decidableForallMem _

theorem attendsTo_grows (hg : Grows σ σ') (h : Frame.attendsTo σ.kernel x f) :
    f.attendsTo σ'.kernel x := by
  cases f with
  | socket pc =>
    cases pc with
    | epollWait => cases h
    | dispatch events =>
      obtain ⟨e, he, hin, hd⟩ := h
      exact ⟨e, he, hin, hg.descriptors _ _ hd⟩
  | accept pc =>
    cases pc with
    | accept c => exact hg.descriptors _ _ h
    | _ => cases h
  | _ => cases h

theorem attendsTo_reported (hk : KernelOk σ.kernel) (hw : Waits σ.kernel x) (he : e ∈ events)
    (hfile : e.file = x) (hrep : σ.kernel.reports e) :
    (Frame.socket (.dispatch events)).attendsTo σ.kernel x := by
  subst hfile
  obtain ⟨hd, -, hin⟩ := hk.of_reports hrep
  exact ⟨e, he, hin (by simp [File.readable, hw.2]), hd⟩

/-- A listening socket's report leads to its `accept`. -/
theorem attendsTo_event (hn : NetworkOk σ F) (he : EnteredOk σ F) (hl : ListenOk σ.kernel)
    (hw : Waits σ.kernel x) (hin : e.epollIn = true) (hd : σ.kernel.descriptors e.fd = some x) :
    ∃ c, σ.connectionMap.find e.fd.toUInt32 = some c ∧ onEventFrames c e = [.accept (.accept c)] ∧
      c.fd = e.fd := by
  obtain ⟨c, hc, hfd, -, hkind⟩ := hn.entry_of_registered he hw.1 hd
  refine ⟨c, hc, ?_, hfd⟩
  rw [hl.kind x (hl.backlog x hw.2)] at hkind
  cases htype : c.type with
  | listen => simp [onEventFrames, htype, hin]
  | client => simp [htype] at hkind

theorem attendsTo_step (hn : NetworkOk σ (f ::ₘ R)) (he : EnteredOk σ (f ::ₘ R))
    (hl : ListenOk σ.kernel) (h : Frame.step σ f c = some (op, fs)) (hg : Grows σ (σ.apply op))
    (hsucc : c = .failed → ∀ fd ∈ f.accepting, ∀ x ∈ σ.kernel.descriptors fd,
      (σ.kernel.files x).backlog = 0)
    (hlast : ∀ fd ∈ f.accepting, σ.kernel.descriptors fd = some x → (σ.kernel.files x).backlog ≤ 1)
    (hw : Waits σ.kernel x) (hw' : Waits (σ.apply op).kernel x) (hch : f.attendsTo σ.kernel x) :
    ∃ g ∈ fs, g.attendsTo (σ.apply op).kernel x := by
  cases f with
  | socket pc =>
    cases SocketPc.step_cases h with
    | wait => cases hch
    | done => obtain ⟨e, hmem, -⟩ := hch; cases hmem
    | @unknown e events hnone =>
      obtain ⟨e', hmem, hin, hd⟩ := hch
      rcases List.mem_cons.mp hmem with rfl | hmem
      · obtain ⟨c, hc, -⟩ := attendsTo_event hn he hl hw hin hd
        rw [hnone] at hc
        cases hc
      · exact ⟨_, List.mem_singleton_self _, e', hmem, hin, hd⟩
    | @event conn e events hc =>
      obtain ⟨e', hmem, hin, hd⟩ := hch
      rcases List.mem_cons.mp hmem with rfl | hmem
      · obtain ⟨c', hc', hfs, hfd⟩ := attendsTo_event hn he hl hw hin hd
        obtain rfl : conn = c' := Option.some.inj (hc.symm.trans hc')
        rw [hfs]
        refine ⟨_, List.mem_cons_self, ?_⟩
        show σ.kernel.descriptors conn.fd = some x
        rw [hfd, hd]
      · exact ⟨_, List.mem_append_right _ (List.mem_singleton_self _), e', hmem, hin, hd⟩
  | accept pc =>
    cases pc with
    | accept conn =>
      have hone := hlast _ rfl hch
      cases AcceptPc.step_cases h with
      | @accepted _ l fd received hd =>
        -- the last client was taken, so nobody waits any more
        rw [hch] at hd
        cases hd
        obtain ⟨hlt, -⟩ := hn.kernel.number _ x hch
        have hpos := hw'.2
        simp only [Shared.apply, Kernel.accept, Kernel.files_openFile, Kernel.allocated_updateFile,
          if_neg (Nat.ne_of_lt hlt), Kernel.files_updateFile, if_true] at hpos
        omega
      | failed =>
        have hzero := hsucc rfl _ rfl x hch
        have hpos := hw.2
        omega
    | _ => cases hch
  | _ => cases hch

theorem Reach.waiting
    (h : system.Reach (fun s l => AcceptSucceeds s l ∧ TakesLast s l) (initial n p k) s) :
    ∀ x, Waits s.shared.kernel x →
      (s.shared.kernel.files x).ready ∨ ∃ f ∈ s.frames, f.attendsTo s.shared.kernel x := by
  have hno : ∀ {s}, system.Reach (fun s l => AcceptSucceeds s l ∧ TakesLast s l) (initial n p k) s →
      system.Reach NoClose (initial n p k) s := fun h => h.mono fun _ _ hc => hc.1.1
  refine h.obligation (fun σ x => Waits σ.kernel x) (fun σ x => (σ.kernel.files x).ready)
    (fun σ f x => f.attendsTo σ.kernel x) ?_ ?_ ?_
  · intro x hw; cases hw.1
  · intro s l fs R hr _ hF hm f hf x hch
    exact attendsTo_grows (grows_step hm (Reach.frame_closing (hno hr) hF)) hch
  · intro s l fs R hr hc hF hm x hw'
    have hcl := Reach.frame_closing (hno hr) hF
    have hn := Reach.networkOk (Reach.careful (hno hr))
    have hl := Reach.listenOk (Reach.careful (hno hr))
    have he := Reach.enteredOk (hno hr)
    have hg := grows_step hm hcl
    by_cases hready' : ((s.shared.apply l.op).kernel.files x).ready = true
    · exact .inl hready'
    have hw := waits_apply hw' (by simpa using hready')
    by_cases hready : (s.shared.kernel.files x).ready = true
    · obtain ⟨events, rfl, e, hmem, hfile, hrep⟩ :=
        report_step hn.kernel hm hcl hready (by simpa using hready')
      have hch := attendsTo_reported hn.kernel hw hmem hfile hrep
      exact .inr (.inl ⟨_, by simp, attendsTo_grows hg hch⟩)
    by_cases hch : l.frame.attendsTo s.shared.kernel x
    · obtain ⟨g, hmem, hch'⟩ := attendsTo_step (hF ▸ hn) (hF ▸ he) hl hm hg hc.1.2
        (fun fd hfd hd => hc.2 fd hfd x hd (by simpa using hready)) hw hw' hch
      exact .inr (.inl ⟨g, by simp [hmem], hch'⟩)
    · exact .inr (.inr ⟨hw, hready, hch⟩)

/-- Two clients arrive before the loop looks: it blocks with one of them waiting
and no mark. -/
theorem client_left_behind : ∃ s, system.Reach AcceptSucceeds (initial 1 (fun i => 1 <<< i) 1) s ∧
    .socket .epollWait ∈ s.frames ∧ (s.shared.kernel.files 0).interest.isSome ∧
    (s.shared.kernel.files 0).ready = false ∧ (s.shared.kernel.files 0).backlog = 1 := by
  have h : ((system.run AcceptSucceeds (initial 1 (fun i => 1 <<< i) 1)
      (listens 3 5 0 ++ [(2, .connect 0), (2, .connect 0)] ++ polls 1 5 0 ++ accepts 1 6 [] ++
        steps 1 2)).any fun s =>
        .socket .epollWait ∈ s.frames ∧ (s.shared.kernel.files 0).interest.isSome ∧
        (s.shared.kernel.files 0).ready = false ∧ (s.shared.kernel.files 0).backlog = 1) = true := by
    decide +kernel
  exact Machine.exists_of_run h

/-- If `OnAccept` only ever takes the last client of an unmarked socket, the
loop never blocks with a client waiting and no mark. -/
theorem no_client_left
    (h : system.Reach (fun s l => AcceptSucceeds s l ∧ TakesLast s l) (initial n p k) s)
    (hb : .socket .epollWait ∈ s.frames) (hx : (s.shared.kernel.files x).interest.isSome)
    (hr : (s.shared.kernel.files x).ready = false) : (s.shared.kernel.files x).backlog = 0 := by
  by_contra hpos
  rcases Reach.waiting h x ⟨hx, Nat.pos_of_ne_zero hpos⟩ with hready | ⟨f, hf, hch⟩
  · rw [hr] at hready; cases hready
  · have hsock : f.isSocketWorker := by
      cases f with
      | socket | accept => rfl
      | _ => cases hch
    rw [(Reach.socketThread h).blocked hb hf hsock] at hch
    cases hch

/-- One client at a time. -/
theorem no_client_left_single :
    ∃ s, system.Reach (fun s l => AcceptSucceeds s l ∧ TakesLast s l)
      (initial 1 (fun i => 1 <<< i) 1) s ∧ s.shared.kernel.allocated = 2 ∧
      (s.shared.kernel.files 0).backlog = 0 := by
  have h : ((system.run (fun s l => AcceptSucceeds s l ∧ TakesLast s l)
      (initial 1 (fun i => 1 <<< i) 1)
      (listens 3 5 0 ++ [(2, .connect 0)] ++ polls 1 5 0 ++ accepts 1 6 [] ++ steps 1 2)).any
        fun s => (.socket .epollWait ∈ s.frames ∧ (s.shared.kernel.files 0).interest.isSome) ∧
          (s.shared.kernel.files 0).ready = false ∧ s.shared.kernel.allocated = 2) = true := by
    decide +kernel
  obtain ⟨s, hs, ⟨hb, hx⟩, hr, hlen⟩ := Machine.exists_of_run h
  exact ⟨s, hs, hlen, no_client_left hs hb hx hr⟩

end XianNet
