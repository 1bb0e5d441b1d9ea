import XianNet.Registration

/-!
# Closing connections

`CloseConnection` works on a bare number in three steps, and the number is
free again before the last one. `wrong_client_unregistered` is the accept that
falls in between. Where no number is handed out during a `CloseConnection` for
it, closing one connection leaves every other one alone (`client_spared`).
-/

namespace XianNet

open Interleaving

variable {σ : Shared} {s : State} {tr : List Label}

/-- The client whose `OnAccept` registers it in this step. -/
def admitted (l : Label) : Option FileRef :=
  match l.frame, l.op with
  | .accept (.addEvent _ _), .epollAdd x => some x
  | _, _ => none

/-- The connection that `CloseConnection` is called for in this step. -/
def issued (l : Label) : Option FileRef :=
  match l.op with
  | .callClose _ (some c) => c.file
  | _ => none

-- ---------------------------------------------------------------------------
-- Clients that nobody closes
-- ---------------------------------------------------------------------------

/-- The client is open and no `CloseConnection` is at work on its number; its
connection waits to be added, or is in the map. -/
structure Spared (σ : Shared) (F : Multiset Frame) (x : FileRef) : Prop where
  isOpen : σ.kernel.descriptors (σ.kernel.files x).fd = some x
  unclosed : ∀ g ∈ F, g.closing ≠ some (σ.kernel.files x).fd.toUInt32
  entered : (∃ g ∈ F, g.pending = some ((σ.kernel.files x).fd, .client)) ∨
    (σ.connectionMap.find (σ.kernel.files x).fd.toUInt32).isSome

/-- What `OnAccept` leaves behind. -/
structure Served (σ : Shared) (x : FileRef) : Prop where
  registered : (σ.kernel.files x).interest.isSome
  entered : (σ.connectionMap.find (σ.kernel.files x).fd.toUInt32).isSome

/-- A number that waits for a client's entry gets it in the next step. -/
theorem pending_client (h : Frame.step σ f c = some (op, fs)) (hf : f.pending = some (fd, .client)) :
    ∃ serviceId,
      op = .emplaceConnection fd ⟨.client, fd, serviceId, σ.kernel.descriptors fd⟩ := by
  cases f with
  | accept pc =>
    cases AcceptPc.step_cases h with
    | @addConnection fd' conn =>
      simp only [Frame.pending] at hf
      split at hf <;> cases hf
      exact ⟨_, rfl⟩
    | _ => cases hf
  | listen pc => cases pc <;> cases hf
  | _ => cases hf

section
variable {op : Op} {f : Frame} {fs : List Frame} {R : Multiset Frame}

theorem Spared.number_apply (hi : Spared σ F x) (hk : KernelOk σ.kernel) :
    ((σ.apply op).kernel.files x).fd = (σ.kernel.files x).fd :=
  (file_apply (hk.number _ x hi.isOpen).1).1

theorem Spared.step (hi : Spared σ (f ::ₘ R) x) (hn : NetworkOk σ (f ::ₘ R))
    (h : Frame.step σ f c = some (op, fs)) (hcall : ∀ k, op ≠ .callClose k none)
    (hun : ∀ k c, op = .callClose k (some c) → c.file ≠ some x) :
    Spared (σ.apply op) ((fs : Multiset Frame) + R) x := by
  have hf := hi.unclosed f (Multiset.mem_cons_self f R)
  refine ⟨?_, ?_, ?_⟩ <;> rw [hi.number_apply hn.kernel]
  · exact descriptors_step h hf hi.isOpen
  · intro g hg hk
    rcases Multiset.mem_add.mp hg with hg | hg
    · rcases closing_origin h hg hk with hk | heq
      · exact hf hk
      · -- a new call found the client's own entry
        cases hfind : σ.connectionMap.find (σ.kernel.files x).fd.toUInt32 with
        | none => rw [hfind] at heq; exact hcall _ heq
        | some c =>
          rw [hfind] at heq
          exact hun _ c heq (hn.entry_of_open hi.isOpen hfind).2.1
    · exact hi.unclosed g (Multiset.mem_cons_of_mem hg) hk
  · rcases hi.entered with ⟨g, hg, hp⟩ | hs
    · rcases Multiset.mem_cons.mp hg with rfl | hg
      · obtain ⟨serviceId, rfl⟩ := pending_client h hp
        exact .inr (RwlockUnorderedMap.isSome_find_emplace ..)
      · exact .inl ⟨g, Multiset.mem_add.mpr (.inr hg), hp⟩
    · exact .inr (isSome_find_step h hf hs)

theorem Spared.served_step (hi : Spared σ (f ::ₘ R) x) (hk : KernelOk σ.kernel)
    (h : Frame.step σ f c = some (op, fs)) (hs : Served σ x) : Served (σ.apply op) x := by
  have hf := hi.unclosed f (Multiset.mem_cons_self f R)
  constructor
  · by_contra hnone
    obtain ⟨k, hclosing, hd⟩ :=
      unregister_step h (hk.number _ x hi.isOpen).1 hs.registered (by simpa using hnone)
    rw [(hk.number _ x hd).2.1] at hf
    exact hf (by simp [hclosing])
  · rw [hi.number_apply hk]
    exact isSome_find_step h hf hs.entered

/-- A client that was just accepted. -/
theorem Spared.accepted (h : Frame.step σ f c = some (.accept y fd received, fs))
    (hfresh : ∀ g ∈ f ::ₘ R, g.closing ≠ some fd.toUInt32) :
    Spared (σ.apply (.accept y fd received)) ((fs : Multiset Frame) + R) σ.kernel.allocated := by
  obtain ⟨conn, rfl⟩ := accept_op h
  have hfree : σ.kernel.free fd := step_enabled h
  have hfd : ((σ.apply (.accept y fd received)).kernel.files σ.kernel.allocated).fd = fd := by
    simp [Shared.apply, Kernel.accept, Kernel.files_openFile]
  refine ⟨?_, ?_, ?_⟩ <;> rw [hfd]
  · simp [Shared.apply, Kernel.accept, Kernel.descriptors_openFile]
  · intro g hg hk
    rcases Multiset.mem_add.mp hg with hg | hg
    · rw [List.mem_singleton.mp hg] at hk; cases hk
    · exact hfresh g (Multiset.mem_cons_of_mem hg) hk
  · exact .inl ⟨_, Multiset.mem_add.mpr (.inl (List.mem_singleton_self _)), pending_accepted hfree⟩

theorem admitted_cases (h : Frame.step σ l.frame c = some (l.op, fs)) (ha : admitted l = some x) :
    ∃ fd conn, l.frame = .accept (.addEvent fd conn) ∧ l.op = .epollAdd x ∧
      σ.kernel.descriptors fd = some x := by
  unfold admitted at ha
  split at ha
  · rename_i fd conn x' hframe hop
    cases ha
    rw [hframe, hop] at h
    have hadd : AcceptPc.step σ (.addEvent fd conn) c = some (.epollAdd x, fs) := h
    cases AcceptPc.step_cases hadd with
    | added hd => exact ⟨fd, conn, hframe, hop, hd⟩
  · cases ha

/-- `AddConnection` came before `AddEvent`. -/
theorem Spared.served_admitted (hi : Spared σ (.accept (.addEvent fd conn) ::ₘ R) x)
    (hone : ∀ pc, .accept pc ∉ R) : Served (σ.apply (.epollAdd x)) x := by
  have hsome : (σ.connectionMap.find (σ.kernel.files x).fd.toUInt32).isSome := by
    rcases hi.entered with ⟨g, hg, hp⟩ | hs
    · rcases Multiset.mem_cons.mp hg with rfl | hg
      · cases hp
      · cases g with
        | accept pc => exact absurd hg (hone pc)
        | listen pc => cases pc <;> cases hp
        | _ => cases hp
    · exact hs
  constructor <;> simp only [Shared.apply, Kernel.epollAdd, Kernel.files_updateFile, if_true]
  · rfl
  · exact hsome

end

-- ---------------------------------------------------------------------------
-- Runs
-- ---------------------------------------------------------------------------

theorem allocated_apply {op : Op} : σ.kernel.allocated ≤ (σ.apply op).kernel.allocated := by
  cases op with
  | openSocket | accept => exact Nat.le_succ _
  | close => exact Nat.le_of_eq Kernel.allocated_close.symm
  | addService => rw [kernel_apply rfl]
  | _ => exact Nat.le_refl _

theorem admitted_lt (h : system.Exec C (initial n p k) tr s) (hl : l ∈ tr)
    (ha : admitted l = some x) : x < s.shared.kernel.allocated := by
  induction h with
  | refl => cases hl
  | @step tr s₁ l' s₂ hr hc hs ih =>
    obtain ⟨fs, R, hm, -, -, hsh⟩ := hs.frames
    have hlt : x < s₁.shared.kernel.allocated := by
      rcases List.mem_append.mp hl with hl | hl
      · exact ih hl
      · cases List.mem_singleton.mp hl
        obtain ⟨fd, conn, -, -, hd⟩ := admitted_cases hm ha
        exact ((Reach.kernelOk ⟨tr, hr⟩).number fd x hd).1
    rw [hsh]
    exact Nat.lt_of_lt_of_le hlt allocated_apply

theorem Exec.spared (h : system.Exec Careful (initial n p k) tr s) :
    ∀ x, (s.shared.kernel.files x).isClient → (∀ l ∈ tr, issued l ≠ some x) →
      Spared s.shared s.frames x ∧ ((∃ l ∈ tr, admitted l = some x) → Served s.shared x) := by
  induction h with
  | refl => intro x hx; cases hx
  | @step tr s₁ l s₂ hr hc hs ih =>
    intro x hx hun
    obtain ⟨fs, R, hm, hF, hF', hsh⟩ := hs.frames
    have hreach : system.Reach Careful (initial n p k) s₁ := ⟨tr, hr⟩
    have hn : NetworkOk s₁.shared (l.frame ::ₘ R) := hF ▸ Reach.networkOk hreach
    rw [hsh] at hx
    rw [hF', hsh]
    rcases client_apply hx with ⟨y, fd, received, hop, rfl⟩ | hold
    · constructor
      · have hfresh := hc.2 (fd, .client) (by rw [hop]; rfl)
        rw [hF] at hfresh
        rw [hop] at hm ⊢
        exact Spared.accepted hm hfresh
      · rintro ⟨l', hl', ha⟩
        rcases List.mem_append.mp hl' with hl' | hl'
        · exact absurd (admitted_lt hr hl' ha) (Nat.lt_irrefl _)
        · cases List.mem_singleton.mp hl'
          obtain ⟨-, -, -, hadd, -⟩ := admitted_cases hm ha
          rw [hop] at hadd
          cases hadd
    · obtain ⟨hi, hserved⟩ := ih x hold fun l' hl' => hun l' (List.mem_append_left _ hl')
      rw [hF] at hi
      constructor
      · refine hi.step hn hm hc.1 ?_
        intro k c hop hfile
        exact hun l (by simp) (by simp [issued, hop, hfile])
      · rintro ⟨l', hl', ha⟩
        rcases List.mem_append.mp hl' with hl' | hl'
        · exact hi.served_step hn.kernel hm (hserved ⟨l', hl', ha⟩)
        · cases List.mem_singleton.mp hl'
          obtain ⟨fd, conn, hframe, hop, -⟩ := admitted_cases hm ha
          rw [hframe] at hi hF
          rw [hop]
          exact hi.served_admitted fun pc => (Reach.socketThread hreach).accept_unique hF

/-- The client behind number 6 is closed; the number goes to the next client,
and the rest of the `CloseConnection` takes that one's registration. -/
theorem wrong_client_unregistered :
    ∃ tr s, system.Exec ForEntry (initial 1 (fun i => 1 <<< i) 1) tr s ∧
      s.threads[1]? = some [.socket .epollWait] ∧ (s.shared.kernel.files 2).isClient ∧
      (∃ l ∈ tr, admitted l = some 2) ∧ (∀ l ∈ tr, issued l ≠ some 2) ∧
      (s.shared.kernel.files 2).interest = none := by
  have h : ((system.record ForEntry (initial 1 (fun i => 1 <<< i) 1)
      (listens 3 5 0 ++ (2, .connect 0) :: polls 1 5 0 ++ accepts 1 6 [] ++ steps 1 2 ++
        (3, .closeConnection 6) :: steps 3 2 ++
        (2, .connect 0) :: polls 1 5 0 ++ accepts 1 6 [] ++ steps 1 2 ++ steps 3 1)).any fun r =>
        r.2.threads[1]? = some [.socket .epollWait] ∧ (r.2.shared.kernel.files 2).isClient ∧
        (∃ l ∈ r.1, admitted l = some 2) ∧ (∀ l ∈ r.1, issued l ≠ some 2) ∧
        (r.2.shared.kernel.files 2).interest = none) = true := by
    decide +kernel
  obtain ⟨tr, s, hs, hP⟩ := Machine.exists_of_record h
  exact ⟨tr, s, hs, hP⟩

/-- Closing one connection leaves every other client open, in the map and
registered, as long as no number is handed out during a `CloseConnection` for
it. -/
theorem client_spared (h : system.Exec Careful (initial n p k) tr s)
    (hx : (s.shared.kernel.files x).isClient) (ha : ∃ l ∈ tr, admitted l = some x)
    (hun : ∀ l ∈ tr, issued l ≠ some x) :
    s.shared.kernel.descriptors (s.shared.kernel.files x).fd = some x ∧
      (s.shared.kernel.files x).interest.isSome ∧
      ∃ c, s.shared.connectionMap.find (s.shared.kernel.files x).fd.toUInt32 = some c ∧
        c.fd = (s.shared.kernel.files x).fd ∧ c.type = .client ∧ c.file = some x := by
  obtain ⟨hspared, hserved⟩ := Exec.spared h x hx hun
  obtain ⟨hreg, hentered⟩ := hserved ha
  obtain ⟨c, hc⟩ := Option.isSome_iff_exists.mp hentered
  obtain ⟨hfd, hfile, hkind⟩ := (Reach.networkOk ⟨tr, h⟩).entry_of_open hspared.isOpen hc
  rw [hx] at hkind
  exact ⟨hspared.isOpen, hreg, c, hc, hfd, of_decide_eq_true hkind.symm, hfile⟩

/-- The second client comes after the first one's `CloseConnection`. -/
theorem client_spared_later :
    ∃ tr s, system.Exec Careful (initial 1 (fun i => 1 <<< i) 1) tr s ∧
      (∃ l ∈ tr, issued l = some 1) ∧
      s.shared.kernel.descriptors (s.shared.kernel.files 2).fd = some 2 ∧
      (s.shared.kernel.files 2).interest.isSome := by
  have h : ((system.record Careful (initial 1 (fun i => 1 <<< i) 1)
      (listens 3 5 0 ++ (2, .connect 0) :: polls 1 5 0 ++ accepts 1 6 [] ++ steps 1 2 ++
        (3, .closeConnection 6) :: steps 3 3 ++
        (2, .connect 0) :: polls 1 5 0 ++ accepts 1 6 [] ++ steps 1 2)).any fun r =>
        (∃ l ∈ r.1, issued l = some 1) ∧ (r.2.shared.kernel.files 2).isClient ∧
        (∃ l ∈ r.1, admitted l = some 2) ∧ (∀ l ∈ r.1, issued l ≠ some 2)) = true := by
    decide +kernel
  obtain ⟨tr, s, hs, hissued, hx, ha, hun⟩ := Machine.exists_of_record h
  obtain ⟨hopen, hreg, -⟩ := client_spared hs hx ha hun
  exact ⟨tr, s, hs, hissued, hopen, hreg⟩

end XianNet
