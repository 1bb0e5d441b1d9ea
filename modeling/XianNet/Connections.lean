import XianNet.Descriptors

/-!
# Numbers and connections

The socket worker, `Listen` and `CloseConnection` each change the descriptor
table and `connection_map_` in separate steps. `NetworkOk` is what holds in
between, as long as a number is not handed out while a `CloseConnection` for
it is still going on: every entry names the open file it was made for, and a
number that waits for its entry belongs to one thread.
-/

namespace XianNet

open Interleaving

variable {σ : Shared} {C : State → Label → Prop} {s : State}

theorem toUInt32_inj {fd fd' : Int32} (h : fd.toUInt32 = fd'.toUInt32) : fd = fd' := by
  simpa using congrArg UInt32.toInt32 h

-- ---------------------------------------------------------------------------
-- The steps
-- ---------------------------------------------------------------------------

/-- The operations on descriptor numbers and `connection_map_`. -/
def Op.isNumbering : Op → Bool
  | .emplaceConnection .. | .eraseConnection _ | .openSocket _ | .accept .. | .close _ => true
  | _ => false

/-- The number an operation opens, and for what kind of connection. -/
def Op.opens : Op → Option (Int32 × ConnectionType)
  | .openSocket fd => some (fd, .listen)
  | .accept _ fd _ => some (fd, .client)
  | _ => none

/-- The number an operation closes. -/
def Op.closes : Op → Option Int32
  | .close fd => some fd
  | _ => none

/-- A step, as far as numbers and connections go. -/
inductive NumberStep (σ : Shared) : Frame → Op → List Frame → Prop
  | quiet : op.isNumbering = false → (fs.filterMap Frame.pending).Sublist f.pending.toList →
      (∀ g ∈ fs, ∀ fd, g.closing = some fd →
        g = .close (.erase fd) ∧ op = .callClose fd (σ.connectionMap.find fd)) →
      NumberStep σ f op fs
  | opened : op.opens = some (fd, t) → σ.kernel.free fd → g.closing = none →
      g.pending = some (fd, t) ∨ (t = .listen ∧ g.pending = none) → NumberStep σ f op [g]
  | emplaced : f.pending = some (fd, t) ∨ (fd < 0 ∧ f.pending = none) → g.pending = none →
      g.closing = none →
      NumberStep σ f (.emplaceConnection fd ⟨t, fd, serviceId, σ.kernel.descriptors fd⟩) [g]
  | erased : NumberStep σ (.close (.erase k)) (.eraseConnection k) [.close (.close k succ)]
  | closed : (∀ g ∈ fs, g = .close (.removeEvent k)) →
      NumberStep σ (.close (.close k succ)) (.close k.toInt32) fs

theorem NumberStep.silent (h : op.isNumbering = false) (hp : ∀ g ∈ fs, Frame.pending g = none)
    (hc : ∀ g ∈ fs, Frame.closing g = none) : NumberStep σ f op fs := by
  refine .quiet h ?_ fun g hg fd hfd => by rw [hc g hg] at hfd; cases hfd
  rw [List.filterMap_eq_nil_iff.mpr hp]
  exact List.nil_sublist _

theorem pending_accepted (h : σ.kernel.free fd) :
    (Frame.accept (.addConnection fd conn)).pending = some (fd, .client) :=
  if_pos (Kernel.free_iff.mp h).1

theorem pending_failed : (Frame.accept (.addConnection (-1) conn)).pending = none := by
  simp only [Frame.pending]
  exact if_neg (by decide)

theorem NumberStep.of_offline (h : OfflineStep σ op fs) : NumberStep σ f op fs := by
  obtain ⟨hop, hopening, hclosing⟩ := h
  refine .quiet ?_ ?_ hclosing
  · cases op <;> first | rfl | cases hop
  · rw [List.filterMap_eq_nil_iff.mpr fun g hg => (hopening g hg).1]
    exact List.nil_sublist _

theorem step_number (h : Frame.step σ f c = some (op, fs)) : NumberStep σ f op fs := by
  cases Frame.step_cases h with
  | socket hs =>
    cases hs with
    | event =>
      refine .silent rfl (fun g hg => ?_) fun g hg => ?_ <;>
        rcases eventFrames_cases hg with ⟨-, -, rfl⟩ | ⟨-, rfl⟩ | rfl <;> rfl
    | _ => exact .silent rfl (by simp [Frame.pending]) (by simp [Frame.closing])
  | accept hs =>
    cases hs with
    | accepted _ _ hfree => exact .opened rfl hfree rfl (.inl (pending_accepted hfree))
    | failed =>
      refine .silent rfl ?_ (by simp [Frame.closing])
      intro g hg
      rw [List.mem_singleton.mp hg]
      exact pending_failed
    | @addConnection fd conn =>
      refine .emplaced ?_ rfl rfl
      by_cases hfd : 0 ≤ fd
      · exact .inl (if_pos hfd)
      · exact .inr ⟨Int32.not_le.mp hfd, if_neg hfd⟩
    | _ => exact .silent rfl (by simp [Frame.pending]) (by simp [Frame.closing])
  | listen hs =>
    cases hs with
    | opened hfree => exact .opened rfl hfree rfl (.inl rfl)
    | openedZero hfree => exact .opened rfl hfree rfl (.inr ⟨rfl, rfl⟩)
    | addConnection => exact .emplaced (.inl rfl) rfl rfl
    | bound | listening =>
      exact .quiet rfl (List.Sublist.refl _) (by simp [Frame.closing])
    | _ => exact .silent rfl (by simp [Frame.pending]) (by simp [Frame.closing])
  | close hs =>
    cases hs with
    | erase => exact .erased
    | closeErased => exact .closed (by simp)
    | close => exact .closed (by simp)
    | _ => exact .silent rfl (by simp) (by simp)
  | network hs | gateway hs | modify hs =>
    cases hs <;> exact .silent rfl (by simp [Frame.pending]) (by simp [Frame.closing])
  | offline ho => exact .of_offline ho

-- ---------------------------------------------------------------------------
-- Open numbers
-- ---------------------------------------------------------------------------

section
variable {fd fd' : Int32} {t t' : ConnectionType}

/-- The number is open, for a file of the kind. -/
def Shared.OpenAs (σ : Shared) (fd : Int32) (t : ConnectionType) : Prop :=
  ∃ f, σ.kernel.descriptors fd = some f ∧ (σ.kernel.files f).isClient = decide (t = .client)

theorem Shared.OpenAs.type (h : σ.OpenAs fd t) (h' : σ.OpenAs fd t') : t = t' := by
  obtain ⟨f, hf, ht⟩ := h
  obtain ⟨f', hf', ht'⟩ := h'
  rw [hf] at hf'
  cases hf'
  rw [ht] at ht'
  cases t <;> cases t' <;> first | rfl | cases ht'

theorem Shared.OpenAs.pos (h : σ.OpenAs fd t) (hk : KernelOk σ.kernel) : 0 ≤ fd :=
  let ⟨f, hf, _⟩ := h
  (hk.number fd f hf).2.2

theorem Shared.OpenAs.ne (h : σ.OpenAs fd t) (hfree : σ.kernel.free fd') : fd ≠ fd' := by
  rintro rfl
  obtain ⟨f, hf, -⟩ := h
  rw [(Kernel.free_iff.mp hfree).2] at hf
  cases hf

/-- A file keeps its number and its kind. -/
theorem file_apply {op : Op} (hx : x < σ.kernel.allocated) :
    ((σ.apply op).kernel.files x).fd = (σ.kernel.files x).fd ∧
      ((σ.apply op).kernel.files x).isClient = (σ.kernel.files x).isClient := by
  obtain ⟨file, heq, hstep⟩ := file_step σ op x
  rw [heq]
  cases hstep with
  | opened hnew | accepted hnew => exact absurd hnew (Nat.ne_of_lt hx)
  | _ => exact ⟨rfl, rfl⟩

theorem Shared.OpenAs.apply {op : Op} (h : σ.OpenAs fd t) (hk : KernelOk σ.kernel)
    (hd : (σ.apply op).kernel.descriptors fd = σ.kernel.descriptors fd) :
    (σ.apply op).OpenAs fd t := by
  obtain ⟨f, hf, ht⟩ := h
  exact ⟨f, hd.trans hf, by rw [(file_apply (hk.number fd f hf).1).2, ht]⟩

theorem descriptors_quiet {op : Op} (h : op.isNumbering = false) :
    (σ.apply op).kernel.descriptors = σ.kernel.descriptors := by
  cases op <;> first | rfl | cases h

theorem find_quiet {op : Op} (h : op.isNumbering = false) :
    (σ.apply op).connectionMap = σ.connectionMap := by
  cases op <;> first | rfl | cases h

theorem descriptors_opened {op : Op} (h : op.opens = some (fd, t)) :
    (σ.apply op).kernel.descriptors fd' =
      if fd' = fd then some σ.kernel.allocated else σ.kernel.descriptors fd' := by
  cases op <;> cases h <;> simp [Shared.apply, Kernel.accept, Kernel.descriptors_openFile]

theorem openAs_opened {op : Op} (h : op.opens = some (fd, t)) : (σ.apply op).OpenAs fd t := by
  refine ⟨σ.kernel.allocated, by rw [descriptors_opened h, if_pos rfl], ?_⟩
  cases op <;> cases h <;> simp [Shared.apply, Kernel.accept, Kernel.files_openFile]

theorem find_opened {op : Op} (h : op.opens = some (fd, t)) :
    (σ.apply op).connectionMap = σ.connectionMap := by
  cases op <;> cases h <;> rfl

end

-- ---------------------------------------------------------------------------
-- What stays, and where the rest comes from
-- ---------------------------------------------------------------------------

/-- An entry stays where no `CloseConnection` is at work. -/
theorem find_step {k : UInt32} (h : Frame.step σ f choice = some (op, fs)) (hf : f.closing ≠ some k)
    (hk : σ.connectionMap.find k = some c) : (σ.apply op).connectionMap.find k = some c := by
  cases step_number h with
  | quiet hop => rwa [find_quiet hop]
  | opened hop => rwa [find_opened hop]
  | emplaced =>
    simp only [Shared.apply, RwlockUnorderedMap.find_emplace]
    rw [if_neg, hk]
    rintro ⟨rfl, hnone⟩
    rw [hnone] at hk
    cases hk
  | erased =>
    simp only [Shared.apply, RwlockUnorderedMap.find_erase]
    rw [if_neg]
    · exact hk
    · rintro rfl; exact hf rfl
  | closed => exact hk

/-- An entry was there, or is made in this step. -/
theorem find_connection_apply {op : Op} {k : UInt32}
    (h : (σ.apply op).connectionMap.find k = some c) :
    σ.connectionMap.find k = some c ∨ ∃ fd, op = .emplaceConnection fd c ∧ k = fd.toUInt32 := by
  cases op with
  | emplaceConnection fd c' =>
    simp only [Shared.apply, RwlockUnorderedMap.find_emplace] at h
    split at h
    · rename_i hnew
      cases h
      exact .inr ⟨fd, rfl, hnew.1⟩
    · exact .inl h
  | eraseConnection k' =>
    simp only [Shared.apply, RwlockUnorderedMap.find_erase] at h
    split at h
    · cases h
    · exact .inl h
  | _ => exact .inl h

theorem emplaced_fd (h : Frame.step σ f choice = some (.emplaceConnection fd c, fs)) :
    c.fd = fd := by
  cases step_number h with
  | emplaced => rfl
  | quiet hop => cases hop
  | opened hop => cases hop

/-- Every entry is under its own number. -/
theorem Reach.keyed (h : system.Reach C (initial n p k) s) :
    ∀ key c, s.shared.connectionMap.find key = some c → key = c.fd.toUInt32 := by
  refine h.invariant
    (I := fun σ _ => ∀ key c, σ.connectionMap.find key = some c → key = c.fd.toUInt32) ?_ ?_
  · intro key c hc; cases hc
  · intro s l fs R _ _ _ hm hi key c hc
    rcases find_connection_apply hc with hc | ⟨fd, hop, rfl⟩
    · exact hi key c hc
    · rw [emplaced_fd (hop ▸ hm)]

theorem isSome_find_step {k : UInt32} (h : Frame.step σ f choice = some (op, fs))
    (hf : f.closing ≠ some k) (hk : (σ.connectionMap.find k).isSome) :
    ((σ.apply op).connectionMap.find k).isSome := by
  obtain ⟨c, hc⟩ := Option.isSome_iff_exists.mp hk
  rw [find_step h hf hc, Option.isSome_some]

/-- A number stays with its file until it is closed. -/
theorem descriptors_kept {op : Op} (hop : op.enabled σ.kernel) (hclose : op.closes ≠ some fd)
    (hd : σ.kernel.descriptors fd = some x) : (σ.apply op).kernel.descriptors fd = some x := by
  cases op with
  | openSocket fd' | accept _ fd' _ =>
    rw [descriptors_opened rfl, if_neg, hd]
    rintro rfl
    rw [(Kernel.free_iff.mp hop).2] at hd
    cases hd
  | close fd' =>
    simp only [Shared.apply, Kernel.descriptors_close]
    rw [if_neg, hd]
    rintro rfl
    exact hclose rfl
  | _ => exact hd

theorem closes_step (h : Frame.step σ f c = some (op, fs)) (hop : op.closes = some fd) :
    f.closing = some fd.toUInt32 := by
  obtain rfl : op = .close fd := by cases op <;> cases hop; rfl
  generalize hclose : Op.close fd = op at h
  cases step_number h with
  | quiet hq => rw [← hclose] at hq; cases hq
  | opened ho => rw [← hclose] at ho; cases ho
  | emplaced | erased => cases hclose
  | closed => cases hclose; simp [Frame.closing]

theorem descriptors_step {fd : Int32} (h : Frame.step σ f c = some (op, fs))
    (hf : f.closing ≠ some fd.toUInt32) (hd : σ.kernel.descriptors fd = some x) :
    (σ.apply op).kernel.descriptors fd = some x :=
  descriptors_kept (step_enabled h) (fun hop => hf (closes_step h hop)) hd

/-- A `CloseConnection` goes on, or is called for the entry of its number. -/
theorem closing_origin (h : Frame.step σ f c = some (op, fs)) (hg : g ∈ fs)
    (hk : g.closing = some k) :
    f.closing = some k ∨ op = .callClose k (σ.connectionMap.find k) := by
  cases step_number h with
  | quiet _ _ hc => exact .inr (hc g hg k hk).2
  | opened _ _ hgc | emplaced _ _ hgc => rw [List.mem_singleton.mp hg, hgc] at hk; cases hk
  | erased => rw [List.mem_singleton.mp hg] at hk; exact .inl hk
  | closed hfs => rw [hfs g hg] at hk; exact .inl hk

/-- A client is new, or was one before. -/
theorem client_apply {op : Op} (hc : ((σ.apply op).kernel.files x).isClient) :
    (∃ l fd received, op = .accept l fd received ∧ x = σ.kernel.allocated) ∨
      (σ.kernel.files x).isClient := by
  obtain ⟨file, heq, hstep⟩ := file_step σ op x
  rw [heq] at hc
  cases hstep with
  | opened => cases hc
  | accepted hnew => exact .inl ⟨_, _, _, rfl, hnew⟩
  | _ => exact .inr hc

theorem accept_op (h : Frame.step σ f c = some (.accept l fd received, fs)) :
    ∃ conn, fs = [.accept (.addConnection fd conn)] := by
  cases Frame.step_cases h with
  | accept hs => cases hs; exact ⟨_, rfl⟩
  | offline ho => cases ho.outside
  | network hs | socket hs | listen hs | close hs | gateway hs | modify hs => cases hs

-- ---------------------------------------------------------------------------
-- Between the steps
-- ---------------------------------------------------------------------------

/-- The call has taken its entry out of the map. -/
def Frame.erased : Frame → Option UInt32
  | .close (.close k _) | .close (.removeEvent k) => some k
  | _ => none

theorem closing_of_erased (h : Frame.erased g = some k) : g.closing = some k := by
  cases g with
  | close pc => cases pc <;> first | exact h | cases h
  | _ => cases h

structure NetworkOk (σ : Shared) (F : Multiset Frame) : Prop where
  kernel : KernelOk σ.kernel
  pending : ∀ g ∈ F, ∀ fd t, g.pending = some (fd, t) →
    σ.OpenAs fd t ∧ σ.connectionMap.find fd.toUInt32 = none
  owned : ∀ g ∈ F, ∀ fd t, g.pending = some (fd, t) → ∀ g' ∈ F, g'.closing ≠ some fd.toUInt32
  unique : (F.filterMap Frame.pending).Nodup
  entry : ∀ k c, σ.connectionMap.find k = some c → k = c.fd.toUInt32 ∧
    (0 ≤ c.fd → c.file = σ.kernel.descriptors c.fd ∧ σ.OpenAs c.fd c.type)
  erased : ∀ g ∈ F, ∀ k c, g.erased = some k → σ.connectionMap.find k = some c → c.fd < 0

section
variable {f g : Frame} {fs : List Frame} {R : Multiset Frame} {op : Op}

/-- A number that is free has no entry. -/
theorem NetworkOk.find_free (hi : NetworkOk σ F) (hfree : σ.kernel.free fd) :
    σ.connectionMap.find fd.toUInt32 = none := by
  cases hfind : σ.connectionMap.find fd.toUInt32 with
  | none => rfl
  | some c =>
    obtain ⟨hk, hopen⟩ := hi.entry _ c hfind
    cases toUInt32_inj hk
    exact absurd rfl ((hopen (Kernel.free_iff.mp hfree).1).2.ne hfree)

theorem NetworkOk.unique_rest (hi : NetworkOk σ (f ::ₘ R)) : (R.filterMap Frame.pending).Nodup :=
  Multiset.nodup_of_le (Multiset.filterMap_le_filterMap _ (Multiset.le_cons_self R f)) hi.unique

/-- The entry of an open number was made for its file. -/
theorem NetworkOk.entry_of_open (hn : NetworkOk σ F) (hd : σ.kernel.descriptors fd = some x)
    (hc : σ.connectionMap.find fd.toUInt32 = some c) :
    c.fd = fd ∧ c.file = some x ∧ (σ.kernel.files x).isClient = decide (c.type = .client) := by
  obtain ⟨hkey, hentry⟩ := hn.entry _ c hc
  obtain rfl : fd = c.fd := toUInt32_inj hkey
  obtain ⟨hfile, x', hd', hkind⟩ := hentry (hn.kernel.number _ x hd).2.2
  rw [hd] at hfile hd'
  cases hd'
  exact ⟨rfl, hfile, hkind⟩

/-- No other frame waits with the same number. -/
theorem NetworkOk.pending_ne (hi : NetworkOk σ (f ::ₘ R)) (hf : f.pending = some (fd, t))
    (hg : g ∈ R) (hp : g.pending = some (fd', t')) : fd ≠ fd' := by
  rintro rfl
  have hnodup := hi.unique
  rw [Multiset.filterMap_cons_some _ _ _ hf, Multiset.nodup_cons] at hnodup
  have ht := (hi.pending f (Multiset.mem_cons_self f R) fd t hf).1.type
    (hi.pending g (Multiset.mem_cons_of_mem hg) fd t' hp).1
  exact hnodup.1 ((Multiset.mem_filterMap _ _).mpr ⟨g, hg, ht ▸ hp⟩)

theorem NetworkOk.quiet (hi : NetworkOk σ (f ::ₘ R)) (hen : op.enabled σ.kernel)
    (hop : op.isNumbering = false)
    (hp : (fs.filterMap Frame.pending).Sublist f.pending.toList)
    (hc : ∀ g ∈ fs, ∀ k, g.closing = some k →
      g = .close (.erase k) ∧ op = .callClose k (σ.connectionMap.find k))
    (hcall : ∀ k, op ≠ .callClose k none) : NetworkOk (σ.apply op) ((fs : Multiset Frame) + R) := by
  have hopen : ∀ fd t, σ.OpenAs fd t → (σ.apply op).OpenAs fd t := fun fd t ho =>
    ho.apply hi.kernel (by rw [descriptors_quiet hop])
  have hpend : ∀ g ∈ (fs : Multiset Frame) + R, ∀ x, g.pending = some x →
      ∃ g₀ ∈ f ::ₘ R, g₀.pending = some x := fun g hg x hx => by
    rcases Multiset.mem_add.mp hg with hg | hg
    · have hmem := hp.subset (List.mem_filterMap.mpr ⟨g, hg, hx⟩)
      exact ⟨f, Multiset.mem_cons_self f R, by simpa using hmem⟩
    · exact ⟨g, Multiset.mem_cons_of_mem hg, hx⟩
  refine ⟨hi.kernel.apply hen, ?_, ?_, ?_, ?_, ?_⟩
  · intro g hg fd t hx
    obtain ⟨g₀, hg₀, hx₀⟩ := hpend g hg _ hx
    obtain ⟨ho, hnone⟩ := hi.pending g₀ hg₀ fd t hx₀
    exact ⟨hopen fd t ho, by rw [find_quiet hop, hnone]⟩
  · intro g hg fd t hx g' hg' hcl
    obtain ⟨g₀, hg₀, hx₀⟩ := hpend g hg _ hx
    rcases Multiset.mem_add.mp hg' with hg' | hg'
    · -- a new call of `CloseConnection` found an entry
      obtain ⟨-, heq⟩ := hc g' hg' _ hcl
      rw [(hi.pending g₀ hg₀ fd t hx₀).2] at heq
      exact hcall _ heq
    · exact hi.owned g₀ hg₀ fd t hx₀ g' (Multiset.mem_cons_of_mem hg') hcl
  · rw [Multiset.filterMap_add, Multiset.filterMap_coe]
    refine Multiset.nodup_of_le (Multiset.add_le_add_right (Multiset.coe_le.mpr hp.subperm)) ?_
    have hold := hi.unique
    cases hf : f.pending <;> simpa [Multiset.filterMap_cons, hf] using hold
  · intro k c hfind
    rw [find_quiet hop] at hfind
    obtain ⟨hk, ho⟩ := hi.entry k c hfind
    exact ⟨hk, fun hpos => ⟨by rw [descriptors_quiet hop, (ho hpos).1], hopen _ _ (ho hpos).2⟩⟩
  · intro g hg k c he hfind
    rw [find_quiet hop] at hfind
    rcases Multiset.mem_add.mp hg with hg | hg
    · rw [(hc g hg k (closing_of_erased he)).1] at he
      cases he
    · exact hi.erased g (Multiset.mem_cons_of_mem hg) k c he hfind

theorem NetworkOk.opened (hi : NetworkOk σ (f ::ₘ R)) (hen : op.enabled σ.kernel)
    (hop : op.opens = some (fd, t)) (hfree : σ.kernel.free fd)
    (hgc : g.closing = none) (hg : g.pending = some (fd, t) ∨ g.pending = none)
    (hfresh : ∀ g' ∈ f ::ₘ R, g'.closing ≠ some fd.toUInt32) : NetworkOk (σ.apply op) (g ::ₘ R) := by
  have hopen : ∀ fd' t', σ.OpenAs fd' t' → (σ.apply op).OpenAs fd' t' := fun fd' t' ho =>
    ho.apply hi.kernel (by rw [descriptors_opened hop, if_neg (ho.ne hfree)])
  have hpend : ∀ g' ∈ g ::ₘ R, ∀ fd' t', g'.pending = some (fd', t') →
      (fd' = fd ∧ t' = t) ∨ g' ∈ R := fun g' hg' fd' t' hx => by
    rcases Multiset.mem_cons.mp hg' with rfl | hg'
    · rcases hg with hg | hg <;> rw [hg] at hx <;> cases hx
      exact .inl ⟨rfl, rfl⟩
    · exact .inr hg'
  have hclosing : ∀ g' ∈ g ::ₘ R, ∀ k, g'.closing = some k → g' ∈ R := fun g' hg' k hk => by
    rcases Multiset.mem_cons.mp hg' with rfl | hg'
    · rw [hgc] at hk; cases hk
    · exact hg'
  refine ⟨hi.kernel.apply hen, ?_, ?_, ?_, ?_, ?_⟩
  · intro g' hg' fd' t' hx
    rw [find_opened hop]
    rcases hpend g' hg' fd' t' hx with ⟨rfl, rfl⟩ | hR
    · exact ⟨openAs_opened hop, hi.find_free hfree⟩
    · obtain ⟨ho, hnone⟩ := hi.pending g' (Multiset.mem_cons_of_mem hR) fd' t' hx
      exact ⟨hopen fd' t' ho, hnone⟩
  · intro g' hg' fd' t' hx g'' hg'' hcl
    have hR := hclosing g'' hg'' _ hcl
    rcases hpend g' hg' fd' t' hx with ⟨rfl, rfl⟩ | hR'
    · exact hfresh g'' (Multiset.mem_cons_of_mem hR) hcl
    · exact hi.owned g' (Multiset.mem_cons_of_mem hR') fd' t' hx g''
        (Multiset.mem_cons_of_mem hR) hcl
  · rcases hg with hg | hg
    · rw [Multiset.filterMap_cons_some _ _ _ hg, Multiset.nodup_cons]
      refine ⟨?_, hi.unique_rest⟩
      intro hmem
      obtain ⟨g', hR, hx⟩ := (Multiset.mem_filterMap _ _).mp hmem
      exact absurd rfl ((hi.pending g' (Multiset.mem_cons_of_mem hR) fd t hx).1.ne hfree)
    · rw [Multiset.filterMap_cons_none _ _ hg]
      exact hi.unique_rest
  · intro k c hfind
    rw [find_opened hop] at hfind
    obtain ⟨hk, ho⟩ := hi.entry k c hfind
    refine ⟨hk, fun hpos => ⟨?_, hopen _ _ (ho hpos).2⟩⟩
    rw [descriptors_opened hop, if_neg ((ho hpos).2.ne hfree), (ho hpos).1]
  · intro g' hg' k c he hfind
    rw [find_opened hop] at hfind
    have hR := hclosing g' hg' k (closing_of_erased he)
    exact hi.erased g' (Multiset.mem_cons_of_mem hR) k c he hfind

/-- A new frame that neither waits nor closes is none of the frames that do. -/
theorem mem_of_active (hgp : g.pending = none) (hgc : g.closing = none) {g' : Frame}
    (hg' : g' ∈ g ::ₘ R) (hne : g'.pending ≠ none ∨ g'.closing ≠ none) : g' ∈ R := by
  rcases Multiset.mem_cons.mp hg' with rfl | hg'
  · rcases hne with hne | hne
    · exact absurd hgp hne
    · exact absurd hgc hne
  · exact hg'

/-- A waiting number gets its entry. -/
theorem NetworkOk.emplaced (hi : NetworkOk σ (f ::ₘ R)) (hf : f.pending = some (fd, t))
    (hgp : g.pending = none) (hgc : g.closing = none) :
    NetworkOk (σ.apply (.emplaceConnection fd ⟨t, fd, serviceId, σ.kernel.descriptors fd⟩))
      (g ::ₘ R) := by
  obtain ⟨hopen, hnone⟩ := hi.pending f (Multiset.mem_cons_self f R) fd t hf
  have hfind : ∀ k, (σ.apply (.emplaceConnection fd
      ⟨t, fd, serviceId, σ.kernel.descriptors fd⟩)).connectionMap.find k =
      if k = fd.toUInt32 then some ⟨t, fd, serviceId, σ.kernel.descriptors fd⟩
      else σ.connectionMap.find k := fun k => by
    simp only [Shared.apply, RwlockUnorderedMap.find_emplace, hnone, and_true]
  have hpend : ∀ g' ∈ g ::ₘ R, ∀ x, g'.pending = some x → g' ∈ R := fun g' hg' x hx =>
    mem_of_active hgp hgc hg' (.inl (by simp [hx]))
  have hclosing : ∀ g' ∈ g ::ₘ R, ∀ k, g'.closing = some k → g' ∈ R := fun g' hg' k hk =>
    mem_of_active hgp hgc hg' (.inr (by simp [hk]))
  refine ⟨hi.kernel, ?_, ?_, ?_, ?_, ?_⟩
  · intro g' hg' fd' t' hx
    have hR := hpend g' hg' _ hx
    obtain ⟨ho, hold⟩ := hi.pending g' (Multiset.mem_cons_of_mem hR) fd' t' hx
    refine ⟨ho, ?_⟩
    rw [hfind, if_neg, hold]
    exact fun hk => hi.pending_ne hf hR hx (toUInt32_inj hk.symm)
  · intro g' hg' fd' t' hx g'' hg'' hcl
    exact hi.owned g' (Multiset.mem_cons_of_mem (hpend g' hg' _ hx)) fd' t' hx g''
      (Multiset.mem_cons_of_mem (hclosing g'' hg'' _ hcl)) hcl
  · rw [Multiset.filterMap_cons_none _ _ hgp]
    exact hi.unique_rest
  · intro k c hk
    rw [hfind] at hk
    split at hk
    · rename_i heq; cases hk; exact ⟨heq, fun _ => ⟨rfl, hopen⟩⟩
    · exact hi.entry k c hk
  · intro g' hg' k c he hk
    have hR := hclosing g' hg' k (closing_of_erased he)
    rw [hfind] at hk
    split at hk
    · rename_i heq
      exact absurd (heq ▸ closing_of_erased he) (hi.owned f (Multiset.mem_cons_self f R) fd t hf g'
        (Multiset.mem_cons_of_mem hR))
    · exact hi.erased g' (Multiset.mem_cons_of_mem hR) k c he hk

/-- `OnAccept` puts the `-1` of a failed `accept` into the map. -/
theorem NetworkOk.emplacedFailed (hi : NetworkOk σ (f ::ₘ R)) (hfd : fd < 0)
    (hgp : g.pending = none) (hgc : g.closing = none) (hcfd : c.fd = fd) :
    NetworkOk (σ.apply (.emplaceConnection fd c)) (g ::ₘ R) := by
  have hfind : ∀ k c', (σ.apply (.emplaceConnection fd c)).connectionMap.find k = some c' →
      σ.connectionMap.find k = some c' ∨ (k = fd.toUInt32 ∧ c' = c) := fun k c' hk => by
    simp only [Shared.apply, RwlockUnorderedMap.find_emplace] at hk
    split at hk
    · rename_i heq; cases hk; exact .inr ⟨heq.1, rfl⟩
    · exact .inl hk
  have hmem : ∀ g' ∈ g ::ₘ R, g'.pending ≠ none ∨ g'.closing ≠ none → g' ∈ f ::ₘ R :=
    fun g' hg' hne => Multiset.mem_cons_of_mem (mem_of_active hgp hgc hg' hne)
  refine ⟨hi.kernel, ?_, ?_, ?_, ?_, ?_⟩
  · intro g' hg' fd' t' hx
    obtain ⟨ho, hold⟩ := hi.pending g' (hmem g' hg' (.inl (by simp [hx]))) fd' t' hx
    refine ⟨ho, ?_⟩
    simp only [Shared.apply, RwlockUnorderedMap.find_emplace, hold]
    refine if_neg ?_
    intro hk
    rw [← toUInt32_inj hk.1] at hfd
    exact absurd (ho.pos hi.kernel) (Int32.not_le.mpr hfd)
  · intro g' hg' fd' t' hx g'' hg'' hcl
    exact hi.owned g' (hmem g' hg' (.inl (by simp [hx]))) fd' t' hx g''
      (hmem g'' hg'' (.inr (by simp [hcl]))) hcl
  · rw [Multiset.filterMap_cons_none _ _ hgp]
    exact hi.unique_rest
  · intro k c' hk
    rcases hfind k c' hk with hk | ⟨rfl, rfl⟩
    · exact hi.entry k c' hk
    · exact ⟨by rw [hcfd], fun hpos => absurd hpos (Int32.not_le.mpr (hcfd ▸ hfd))⟩
  · intro g' hg' k c' he hk
    rcases hfind k c' hk with hk | ⟨rfl, rfl⟩
    · exact hi.erased g' (hmem g' hg' (.inr (by simp [closing_of_erased he]))) k c' he hk
    · rw [hcfd]; exact hfd

theorem NetworkOk.erase (hi : NetworkOk σ (.close (.erase k) ::ₘ R)) :
    NetworkOk (σ.apply (.eraseConnection k)) (.close (.close k succ) ::ₘ R) := by
  have hfind : ∀ k' c, (σ.apply (.eraseConnection k)).connectionMap.find k' = some c →
      k' ≠ k ∧ σ.connectionMap.find k' = some c := fun k' c hk => by
    simp only [Shared.apply, RwlockUnorderedMap.find_erase] at hk
    split at hk
    · cases hk
    · rename_i hne; exact ⟨hne, hk⟩
  have hpend : ∀ g' ∈ .close (.close k succ) ::ₘ R, ∀ x, g'.pending = some x → g' ∈ R :=
    fun g' hg' x hx => by
      rcases Multiset.mem_cons.mp hg' with rfl | hg'
      · cases hx
      · exact hg'
  refine ⟨hi.kernel, ?_, ?_, ?_, fun k' c hk => hi.entry k' c (hfind k' c hk).2, ?_⟩
  · intro g' hg' fd t hx
    obtain ⟨ho, hold⟩ := hi.pending g' (Multiset.mem_cons_of_mem (hpend g' hg' _ hx)) fd t hx
    refine ⟨ho, ?_⟩
    simp only [Shared.apply, RwlockUnorderedMap.find_erase, hold, ite_self]
  · intro g' hg' fd t hx g'' hg'' hcl
    have howned := hi.owned g' (Multiset.mem_cons_of_mem (hpend g' hg' _ hx)) fd t hx
    rcases Multiset.mem_cons.mp hg'' with rfl | hg''
    · exact howned _ (Multiset.mem_cons_self _ R) hcl
    · exact howned g'' (Multiset.mem_cons_of_mem hg'') hcl
  · rw [Multiset.filterMap_cons_none _ _ rfl]
    exact hi.unique_rest
  · intro g' hg' k' c he hk
    obtain ⟨hne, hk⟩ := hfind k' c hk
    rcases Multiset.mem_cons.mp hg' with rfl | hg'
    · cases he; exact absurd rfl hne
    · exact hi.erased g' (Multiset.mem_cons_of_mem hg') k' c he hk

theorem NetworkOk.close (hi : NetworkOk σ (.close (.close k succ) ::ₘ R))
    (hfs : ∀ g ∈ fs, g = .close (.removeEvent k)) :
    NetworkOk (σ.apply (.close k.toInt32)) ((fs : Multiset Frame) + R) := by
  have hself := Multiset.mem_cons_self (Frame.close (.close k succ)) R
  have hopen : ∀ fd t, σ.OpenAs fd t → fd.toUInt32 ≠ k →
      (σ.apply (.close k.toInt32)).kernel.descriptors fd = σ.kernel.descriptors fd ∧
      (σ.apply (.close k.toInt32)).OpenAs fd t := fun fd t ho hne => by
    have hd : (σ.apply (.close k.toInt32)).kernel.descriptors fd = σ.kernel.descriptors fd := by
      simp only [Shared.apply, Kernel.descriptors_close]
      refine if_neg fun heq => hne ?_
      rw [heq, UInt32.toUInt32_toInt32]
    exact ⟨hd, ho.apply hi.kernel hd⟩
  have hpend : ∀ g' ∈ (fs : Multiset Frame) + R, ∀ x, g'.pending = some x → g' ∈ R :=
    fun g' hg' x hx => by
      rcases Multiset.mem_add.mp hg' with hg' | hg'
      · rw [hfs g' hg'] at hx; cases hx
      · exact hg'
  refine ⟨hi.kernel.close, ?_, ?_, ?_, ?_, ?_⟩
  · intro g' hg' fd t hx
    have hmem : g' ∈ .close (.close k succ) ::ₘ R := Multiset.mem_cons_of_mem (hpend g' hg' _ hx)
    obtain ⟨ho, hnone⟩ := hi.pending g' hmem fd t hx
    have hother : fd.toUInt32 ≠ k := fun hk =>
      hi.owned g' hmem fd t hx _ hself (congrArg some hk.symm)
    exact ⟨(hopen fd t ho hother).2, hnone⟩
  · intro g' hg' fd t hx g'' hg'' hcl
    have howned := hi.owned g' (Multiset.mem_cons_of_mem (hpend g' hg' _ hx)) fd t hx
    rcases Multiset.mem_add.mp hg'' with hg'' | hg''
    · rw [hfs g'' hg''] at hcl
      exact howned _ hself hcl
    · exact howned g'' (Multiset.mem_cons_of_mem hg'') hcl
  · rw [Multiset.filterMap_add, Multiset.filterMap_coe, List.filterMap_eq_nil_iff.mpr,
      Multiset.coe_nil, zero_add]
    · exact hi.unique_rest
    · intro g hg; rw [hfs g hg]; rfl
  · intro k' c hk
    obtain ⟨hkey, ho⟩ := hi.entry k' c hk
    refine ⟨hkey, ?_⟩
    intro hpos
    have hne : c.fd.toUInt32 ≠ k := fun heq =>
      absurd hpos (Int32.not_le.mpr (hi.erased _ hself k' c (by rw [hkey, heq]; rfl) hk))
    obtain ⟨hd, hopen⟩ := hopen c.fd c.type (ho hpos).2 hne
    exact ⟨by rw [hd, (ho hpos).1], hopen⟩
  · intro g' hg' k' c he hk
    rcases Multiset.mem_add.mp hg' with hg' | hg'
    · rw [hfs g' hg'] at he
      exact hi.erased _ hself k' c he hk
    · exact hi.erased g' (Multiset.mem_cons_of_mem hg') k' c he hk

/-- `CloseConnection` is called for an entry. -/
def ForEntry (_ : State) (l : Label) : Prop := ∀ k, l.op ≠ .callClose k none

def Op.closesNothing : Op → Bool
  | .callClose _ none => true
  | _ => false

instance (s : State) (l : Label) : Decidable (ForEntry s l) :=
  decidable_of_iff (l.op.closesNothing = false) (by
    unfold ForEntry
    cases l.op with
    | callClose k c => cases c <;> simp [Op.closesNothing]
    | _ => simp [Op.closesNothing])

/-- A number is not handed out while a `CloseConnection` for it goes on. -/
def NoReuse (s : State) (l : Label) : Prop :=
  ∀ x ∈ l.op.opens, ∀ g ∈ s.frames, g.closing ≠ some x.1.toUInt32

instance (s : State) (l : Label) : Decidable (NoReuse s l) := by
  unfold NoReuse; infer_instance

def Careful (s : State) (l : Label) : Prop := ForEntry s l ∧ NoReuse s l

instance (s : State) (l : Label) : Decidable (Careful s l) := by
  unfold Careful; infer_instance

theorem NetworkOk.step (hi : NetworkOk σ (f ::ₘ R)) (h : Frame.step σ f c = some (op, fs))
    (hcall : ∀ k, op ≠ .callClose k none)
    (hfresh : ∀ x ∈ op.opens, ∀ g ∈ f ::ₘ R, g.closing ≠ some x.1.toUInt32) :
    NetworkOk (σ.apply op) ((fs : Multiset Frame) + R) := by
  have hen := step_enabled h
  cases step_number h with
  | quiet hop hp hc => exact hi.quiet hen hop hp hc hcall
  | opened hop hfree hgc hg =>
    simpa using hi.opened hen hop hfree hgc (hg.imp_right And.right) (hfresh _ hop)
  | emplaced hf hgp hgc =>
    rcases hf with hf | ⟨hfd, -⟩
    · simpa using hi.emplaced hf hgp hgc
    · simpa using hi.emplacedFailed hfd hgp hgc rfl
  | erased => simpa using hi.erase
  | closed hfs => exact hi.close hfs

end

theorem Reach.networkOk (h : system.Reach Careful (initial n p k) s) :
    NetworkOk s.shared s.frames := by
  have hnone : ∀ g ∈ (initial n p k).frames, g.pending = none ∧ g.erased = none := fun g hg => by
    rcases mem_initial_frames hg with ⟨i, -, rfl⟩ | rfl | rfl | rfl <;> exact ⟨rfl, rfl⟩
  refine h.invariant ⟨Reach.kernelOk (C := Careful) (.refl _), ?_, ?_, ?_, ?_, ?_⟩
    fun s l fs R _ hc hF hm hi => hi.step hm hc.1 (hF ▸ hc.2)
  · intro g hg fd t hx
    rw [(hnone g hg).1] at hx; cases hx
  · intro g hg fd t hx
    rw [(hnone g hg).1] at hx; cases hx
  · rw [filterMap_initial fun g hg => (hnone g hg).1]
    exact Multiset.nodup_zero
  · intro k c hk
    cases hk
  · intro g hg k c he
    rw [(hnone g hg).2] at he; cases he

end XianNet
