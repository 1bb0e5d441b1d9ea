import XianNet.Connections
import XianNet.SocketThread

/-!
# Runs without `CloseConnection`

As long as nothing is closed, a registered file has its entry, so a report of
it always finds its connection: `AddConnection` comes before `AddEvent` in
`OnAccept` and in `Listen`.
-/

namespace XianNet

open Interleaving

variable {σ : Shared} {C : State → Label → Prop} {s : State}

-- ---------------------------------------------------------------------------
-- Runs without `CloseConnection`
-- ---------------------------------------------------------------------------

def NoClose (_ : State) (l : Label) : Prop := ∀ k c, l.op ≠ .callClose k c

def Op.isCloseCall : Op → Bool
  | .callClose .. => true
  | _ => false

instance (s : State) (l : Label) : Decidable (NoClose s l) :=
  decidable_of_iff (l.op.isCloseCall = false) (by
    unfold NoClose; cases l.op <;> simp [Op.isCloseCall])

theorem closing_step (h : Frame.step σ f c = some (op, fs)) (hf : f.closing = none)
    (hop : ∀ k c, op ≠ .callClose k c) (hg : g ∈ fs) : g.closing = none := by
  refine Option.eq_none_iff_forall_ne_some.mpr ?_
  intro k hk
  rcases closing_origin h hg hk with hk | heq
  · rw [hf] at hk; cases hk
  · exact hop _ _ heq

theorem Reach.closing (h : system.Reach NoClose (initial n p k) s) :
    ∀ g ∈ s.frames, g.closing = none := by
  refine h.invariant (I := fun _ F => ∀ g ∈ F, Frame.closing g = none) ?_
    ?_
  · intro g hg
    rcases mem_initial_frames hg with ⟨i, -, rfl⟩ | rfl | rfl | rfl <;> rfl
  · intro s l fs R _ hc _ hm hi g hg
    rcases Multiset.mem_add.mp hg with hg | hg
    · exact closing_step hm (hi _ (Multiset.mem_cons_self _ R)) hc hg
    · exact hi g (Multiset.mem_cons_of_mem hg)

theorem Reach.frame_closing (h : system.Reach NoClose (initial n p k) s)
    (hF : s.frames = f ::ₘ R) : f.closing = none :=
  Reach.closing h f (hF ▸ Multiset.mem_cons_self f R)

theorem Reach.careful (h : system.Reach NoClose (initial n p k) s) :
    system.Reach Careful (initial n p k) s :=
  h.strengthen fun s l s' hr hc _ =>
    ⟨fun k => hc k none, fun x _ g hg => by rw [Reach.closing hr g hg]; exact nofun⟩

/-- Nothing that is open or in the map goes away. -/
structure Grows (σ σ' : Shared) : Prop where
  descriptors : ∀ fd f, σ.kernel.descriptors fd = some f → σ'.kernel.descriptors fd = some f
  find : ∀ k c, σ.connectionMap.find k = some c → σ'.connectionMap.find k = some c

theorem grows_step (h : Frame.step σ f c = some (op, fs)) (hf : f.closing = none) :
    Grows σ (σ.apply op) := by
  refine ⟨?_, ?_⟩
  · intro fd x hd
    exact descriptors_step h (by simp [hf]) hd
  · intro k c hk
    exact find_step h (by simp [hf]) hk

theorem openAs_step (hk : KernelOk σ.kernel) (h : Frame.step σ f c = some (op, fs))
    (hf : f.closing = none) (ho : σ.OpenAs fd t) : (σ.apply op).OpenAs fd t := by
  obtain ⟨x, hx, ht⟩ := ho
  refine Shared.OpenAs.apply ⟨x, hx, ht⟩ hk ?_
  rw [hx]
  exact (grows_step h hf).descriptors fd x hx

-- ---------------------------------------------------------------------------
-- Registration
-- ---------------------------------------------------------------------------

theorem interest_apply {op : Op} (h : ((σ.apply op).kernel.files x).interest.isSome) :
    (σ.kernel.files x).interest.isSome ∨ op = .epollAdd x ∨ ∃ b, op = .epollMod x b := by
  obtain ⟨file, heq, hstep⟩ := file_step σ op x
  rw [heq] at h
  cases hstep with
  | opened | accepted | closed | removed => cases h
  | added => exact .inr (.inl rfl)
  | modified => exact .inr (.inr ⟨_, rfl⟩)
  | _ => exact .inl h

/-- A step, as far as registrations go. -/
structure WatchStep (σ : Shared) (f : Frame) (op : Op) (fs : List Frame) : Prop where
  added : ∀ x, op = .epollAdd x → ∃ fd, f.adding = some fd ∧ σ.kernel.descriptors fd = some x ∧
    (σ.kernel.files x).interest = none
  modified : ∀ x b, op = .epollMod x b → (σ.kernel.files x).interest.isSome
  adding : ∀ g ∈ fs, ∀ fd, g.adding = some fd → ∃ c, op = .emplaceConnection fd c

theorem WatchStep.of_offline (h : OfflineStep σ op fs) : WatchStep σ f op fs := by
  refine ⟨?_, ?_, ?_⟩
  · rintro x rfl; cases h.outside
  · rintro x b rfl; cases h.outside
  · intro g hg fd hfd
    rw [(h.opening g hg).2] at hfd
    cases hfd

theorem step_watch (h : Frame.step σ f c = some (op, fs)) : WatchStep σ f op fs := by
  cases Frame.step_cases h with
  | socket hs =>
    cases hs with
    | event =>
      refine ⟨by simp, by simp, ?_⟩
      intro g hg fd hfd
      rcases eventFrames_cases hg with ⟨-, -, rfl⟩ | ⟨-, rfl⟩ | rfl <;> cases hfd
    | _ => constructor <;> simp [Frame.adding]
  | accept hs =>
    cases hs with
    | added hd hi => constructor <;> simp [Frame.adding, hd, hi]
    | _ => constructor <;> simp [Frame.adding]
  | listen hs =>
    cases hs with
    | added hd hi => constructor <;> simp [Frame.adding, hd, hi]
    | _ => constructor <;> simp [Frame.adding]
  | modify hs =>
    cases hs with
    | notModified => constructor <;> simp
    | modified _ hi => constructor <;> simp [Option.isSome_iff_ne_none, hi]
  | network hs | close hs | gateway hs => cases hs <;> constructor <;> simp [Frame.adding]
  | offline ho => exact .of_offline ho

/-- `AddConnection` has put the number of every registration into the map. -/
structure EnteredOk (σ : Shared) (F : Multiset Frame) : Prop where
  registered : ∀ x, (σ.kernel.files x).interest.isSome →
    (σ.connectionMap.find (σ.kernel.files x).fd.toUInt32).isSome
  adding : ∀ g ∈ F, ∀ fd, g.adding = some fd → (σ.connectionMap.find fd.toUInt32).isSome

theorem EnteredOk.step (hi : EnteredOk σ (f ::ₘ R)) (hk : KernelOk σ.kernel)
    (h : Frame.step σ f c = some (op, fs)) (hf : f.closing = none) :
    EnteredOk (σ.apply op) ((fs : Multiset Frame) + R) := by
  have hgrow : ∀ k, (σ.connectionMap.find k).isSome →
      ((σ.apply op).connectionMap.find k).isSome := by
    intro k hs
    exact isSome_find_step h (by simp [hf]) hs
  obtain ⟨hadded, hmod, hadding⟩ := step_watch h
  constructor
  · intro x hx
    have hlt : ∀ fd, σ.kernel.descriptors fd = some x → x < σ.kernel.allocated := fun fd hd =>
      (hk.number fd x hd).1
    have hold : (σ.kernel.files x).interest.isSome →
        ((σ.apply op).connectionMap.find ((σ.apply op).kernel.files x).fd.toUInt32).isSome := by
      intro hx
      rw [(file_apply (hlt _ (hk.registered x hx))).1]
      exact hgrow _ (hi.registered x hx)
    rcases interest_apply hx with hx | rfl | ⟨b, rfl⟩
    · exact hold hx
    · obtain ⟨fd, hfd, hd, -⟩ := hadded x rfl
      rw [(file_apply (hlt fd hd)).1, (hk.number fd x hd).2.1]
      exact hgrow _ (hi.adding f (Multiset.mem_cons_self f R) fd hfd)
    · exact hold (hmod x b rfl)
  · intro g hg fd hfd
    rcases Multiset.mem_add.mp hg with hg | hg
    · obtain ⟨c, rfl⟩ := hadding g hg fd hfd
      exact RwlockUnorderedMap.isSome_find_emplace ..
    · exact hgrow _ (hi.adding g (Multiset.mem_cons_of_mem hg) fd hfd)

theorem Reach.enteredOk (h : system.Reach NoClose (initial n p k) s) :
    EnteredOk s.shared s.frames := by
  refine h.invariant ⟨?_, ?_⟩ fun s l fs R hr _ hF hm hi =>
    hi.step (Reach.kernelOk hr) hm (Reach.frame_closing hr hF)
  · intro x hx; cases hx
  · intro g hg fd hfd
    rcases mem_initial_frames hg with ⟨i, -, rfl⟩ | rfl | rfl | rfl <;> cases hfd

/-- The entry of a registered file is of its kind. -/
theorem NetworkOk.entry_of_registered (hn : NetworkOk σ F) (he : EnteredOk σ F)
    (hx : (σ.kernel.files x).interest.isSome) (hd : σ.kernel.descriptors fd = some x) :
    ∃ c, σ.connectionMap.find fd.toUInt32 = some c ∧ c.fd = fd ∧ c.file = some x ∧
      (σ.kernel.files x).isClient = decide (c.type = .client) := by
  have hsome := he.registered x hx
  rw [(hn.kernel.number fd x hd).2.1] at hsome
  obtain ⟨c, hc⟩ := Option.isSome_iff_exists.mp hsome
  exact ⟨c, hc, hn.entry_of_open hd hc⟩

-- ---------------------------------------------------------------------------
-- Ready marks
-- ---------------------------------------------------------------------------

/-- The operations that set a mark to something else than it was or more. -/
def Op.remarks : Op → Bool
  | .epollWait _ | .close _ | .epollAdd _ | .epollDel _ => true
  | _ => false

theorem ready_apply {op : Op} (hop : op.remarks = false) (hx : x < σ.kernel.allocated)
    (hr : (σ.kernel.files x).ready) : ((σ.apply op).kernel.files x).ready := by
  obtain ⟨file, heq, hstep⟩ := file_step σ op x
  rw [heq]
  cases hstep with
  | opened hnew | accepted hnew => exact absurd hnew (Nat.ne_of_lt hx)
  | closed | added | removed | reported => cases hop
  | modified | connected | delivered | finished | drained => simp [Kernel.notify, hr]
  | _ => exact hr

theorem remarks_of_offline {op : Op} (h : op.isNetwork = false) : op.remarks = false := by
  cases op <;> first | rfl | cases h

theorem remarks_step (h : Frame.step σ f c = some (op, fs)) (hop : op.remarks) :
    (∃ events, op = .epollWait events ∧ fs = [.socket (.dispatch events)] ∧
      ∀ e ∈ events, σ.kernel.reports e) ∨ (∃ x, op = .epollAdd x) ∨
      ∃ pc, f = .close pc ∧ CloseStep σ pc op fs := by
  cases Frame.step_cases h with
  | socket hs =>
    cases hs with
    | wait _ hrep => exact .inl ⟨_, rfl, rfl, hrep⟩
    | _ => cases hop
  | accept hs =>
    cases hs with
    | added => exact .inr (.inl ⟨_, rfl⟩)
    | _ => cases hop
  | listen hs =>
    cases hs with
    | added => exact .inr (.inl ⟨_, rfl⟩)
    | _ => cases hop
  | close hs => exact .inr (.inr ⟨_, rfl, hs⟩)
  | network hs | gateway hs | modify hs => cases hs <;> cases hop
  | offline ho => rw [remarks_of_offline ho.outside] at hop; cases hop

/-- Only `CloseConnection` takes a registration away. -/
theorem unregister_step (h : Frame.step σ f c = some (op, fs)) (hx : x < σ.kernel.allocated)
    (hi : (σ.kernel.files x).interest.isSome)
    (hi' : ((σ.apply op).kernel.files x).interest = none) :
    ∃ k, f.closing = some k ∧ σ.kernel.descriptors k.toInt32 = some x := by
  obtain ⟨file, heq, hstep⟩ := file_step σ op x
  rw [heq] at hi'
  cases hstep with
  | opened hnew | accepted hnew => exact absurd hnew (Nat.ne_of_lt hx)
  | closed hd =>
    rcases remarks_step h rfl with ⟨events, hop, -⟩ | ⟨x, hop⟩ | ⟨pc, rfl, hclose⟩
    · cases hop
    · cases hop
    · cases hclose <;> exact ⟨_, rfl, hd⟩
  | removed =>
    rcases remarks_step h rfl with ⟨events, hop, -⟩ | ⟨x, hop⟩ | ⟨pc, rfl, hclose⟩
    · cases hop
    · cases hop
    · cases hclose with
      | remove hd => exact ⟨_, rfl, hd⟩
  | added | modified => cases hi'
  | _ => simp_all [Kernel.notify]

/-- A registered file stays registered. -/
theorem interest_step (h : Frame.step σ f c = some (op, fs)) (hf : f.closing = none)
    (hx : x < σ.kernel.allocated) (hi : (σ.kernel.files x).interest.isSome) :
    ((σ.apply op).kernel.files x).interest.isSome := by
  by_contra hi'
  obtain ⟨k, hk, -⟩ := unregister_step h hx hi (by simpa using hi')
  rw [hf] at hk
  cases hk

/-- Only the event loop takes a mark away, and it then holds the event. -/
theorem report_step (hk : KernelOk σ.kernel) (h : Frame.step σ f c = some (op, fs))
    (hf : f.closing = none) (hr : (σ.kernel.files x).ready)
    (hr' : ((σ.apply op).kernel.files x).ready = false) :
    ∃ events, fs = [.socket (.dispatch events)] ∧
      ∃ e ∈ events, e.file = x ∧ σ.kernel.reports e := by
  have hint := hk.marked x hr
  have hlt := (hk.number _ x (hk.registered x hint)).1
  have hop : op.remarks := by
    by_contra hop
    rw [ready_apply (by simpa using hop) hlt hr] at hr'
    cases hr'
  rcases remarks_step h hop with ⟨events, rfl, rfl, hrep⟩ | ⟨f', rfl⟩ | ⟨pc, rfl, -⟩
  · simp only [Shared.apply, Kernel.files_epollWait] at hr'
    split at hr'
    · rename_i hany
      obtain ⟨e, he, hfile⟩ := List.any_eq_true.mp hany
      exact ⟨events, rfl, e, he, by simpa using hfile, hrep e he⟩
    · rw [hr] at hr'; cases hr'
  · obtain ⟨-, -, -, hnone⟩ := (step_watch h).added f' rfl
    by_cases heq : x = f'
    · rw [heq, hnone] at hint; cases hint
    · simp [Shared.apply, Kernel.epollAdd, Kernel.files_updateFile, heq, hr] at hr'
  · cases pc <;> cases hf

end XianNet
