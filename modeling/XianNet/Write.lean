import XianNet.Reuse

/-!
# What reaches the client

`Write` makes one `write` call and drops its result. The socket is
non-blocking, so the kernel takes any prefix of the bytes, or none of them;
no buffer keeps the rest. A client gets its replies whole if and only if the
kernel takes each at once (`replies_whole_iff`).
-/

namespace XianNet

open Interleaving

variable {σ : Shared} {C : State → Label → Prop} {s s' : State} {tr before : List Label}

-- ---------------------------------------------------------------------------
-- Replies
-- ---------------------------------------------------------------------------

/-- The bytes of the `std::string`. -/
def bytesOf (content : String) : List UInt8 := content.toUTF8.toList

/-- The bytes that a `write` takes; a failed one takes none. -/
def Choice.taken : Choice → Nat
  | .result n => n.toNat
  | _ => 0

/-- The reply that a frame is about to pass to `Write` for the number. -/
def Frame.replies (fd : Int32) : Frame → List String
  | .gateway (.write fd' content) => if fd' = fd then [content] else []
  | _ => []

/-- The replies passed to `Write` for the number, in order. -/
def replies (fd : Int32) (tr : List Label) : List String := tr.flatMap (·.frame.replies fd)

/-- The reply bytes for the number that the program holds. There is no place
for them but the handlers that have not made their `write` yet. -/
def held (fd : Int32) (s : State) : List UInt8 :=
  (s.threads.flatten.flatMap (Frame.replies fd)).flatMap bytesOf

/-- The kernel takes all of the reply, where the label is a `write` of one for
the number. -/
def TakesAll (fd : Int32) (l : Label) : Prop :=
  ∀ content ∈ l.frame.replies fd, (bytesOf content).length ≤ l.choice.taken

instance (fd : Int32) (l : Label) : Decidable (TakesAll fd l) :=
  inferInstanceAs (Decidable (∀ _ ∈ _, _))

/-- A handler of the gateway is at work on the number. -/
def Frame.serves (fd : Int32) : Frame → Bool
  | .gateway pc => pc.fd = fd
  | _ => false

/-- No handler is. -/
def Idle (fd : Int32) (s : State) : Prop := ∀ f ∈ s.frames, f.serves fd = false

instance (fd : Int32) (s : State) : Decidable (Idle fd s) :=
  inferInstanceAs (Decidable (∀ _ ∈ _, _))

/-- The connection that is open under the number has got the replies, or the
program holds the rest. -/
def Whole (fd : Int32) (tr : List Label) (s : State) : Prop :=
  ∃ x, s.shared.kernel.descriptors fd = some x ∧
    (s.shared.kernel.files x).sent ++ held fd s = (replies fd tr).flatMap bytesOf

instance (fd : Int32) (tr : List Label) (s : State) : Decidable (Whole fd tr s) :=
  decidable_of_iff ((s.shared.kernel.descriptors fd).any fun x =>
      (s.shared.kernel.files x).sent ++ held fd s = (replies fd tr).flatMap bytesOf) (by
    simp [Whole, Option.any_eq_true])

theorem replies_cases (fd : Int32) (f : Frame) :
    f.replies fd = [] ∨ ∃ content, f = .gateway (.write fd content) := by
  cases f with
  | gateway pc =>
    cases pc with
    | read => exact .inl rfl
    | write fd' content =>
      by_cases h : fd' = fd
      · exact .inr ⟨content, by rw [h]⟩
      · exact .inl (if_neg h)
  | _ => exact .inl rfl

@[simp] theorem replies_write : (Frame.gateway (.write fd content)).replies fd = [content] :=
  if_pos rfl

theorem Idle.held (h : Idle fd s) : held fd s = [] := by
  have hnone : s.threads.flatten.flatMap (Frame.replies fd) = [] := by
    refine List.flatMap_eq_nil_iff.mpr fun f hf => ?_
    rcases replies_cases fd f with hf' | ⟨content, rfl⟩
    · exact hf'
    · have hno := h _ hf
      simp [Frame.serves, GatewayPc.fd] at hno
  rw [XianNet.held, hnone, List.flatMap_nil]

-- ---------------------------------------------------------------------------
-- One step
-- ---------------------------------------------------------------------------

/-- Only `Write` makes a `write` call. -/
theorem write_origin (h : Frame.step σ f c = some (.write x bytes, fs)) :
    ∃ fd content, f = .gateway (.write fd content) ∧ σ.kernel.descriptors fd = some x := by
  cases Frame.step_cases h with
  | gateway hs =>
    cases hs with
    | written hd => exact ⟨_, _, rfl, hd⟩
  | offline ho => cases ho.outside
  | network hs | socket hs | accept hs | listen hs | close hs | modify hs => cases hs

theorem sent_apply {op : Op} (hop : ∀ bytes, op ≠ .write x bytes) (hx : x < σ.kernel.allocated) :
    ((σ.apply op).kernel.files x).sent = (σ.kernel.files x).sent := by
  obtain ⟨file, hfile, hstep⟩ := file_step σ op x
  rw [hfile]
  cases hstep with
  | opened hnew | accepted hnew => exact absurd hnew (Nat.ne_of_lt hx)
  | written => exact absurd rfl (hop _)
  | _ => rfl

/-- The call puts what the kernel takes of the reply. -/
theorem write_step (h : Frame.step σ (.gateway (.write fd content)) c = some (op, fs))
    (hd : σ.kernel.descriptors fd = some x) :
    c.taken ≤ (bytesOf content).length ∧ ((σ.apply op).kernel.files x).sent =
      (σ.kernel.files x).sent ++ (bytesOf content).take c.taken := by
  cases c with
  | result n =>
    simp only [Frame.step, GatewayPc.step, hd] at h
    split at h
    · rename_i hn
      cases h
      simp [Choice.taken, Int.toNat_of_nonpos (Int.le_of_lt hn), Shared.apply]
    · split at h
      · rename_i hle
        cases h
        refine ⟨Int.toNat_le.mpr hle, ?_⟩
        simp [Shared.apply, Shared.updateFile, Kernel.files_updateFile, Choice.taken, bytesOf]
      · cases h
  | _ => cases h

theorem sent_step (hk : KernelOk σ.kernel) (h : Frame.step σ f c = some (op, fs))
    (hd : σ.kernel.descriptors fd = some x) :
    ((σ.apply op).kernel.files x).sent =
      (σ.kernel.files x).sent ++ (f.replies fd).flatMap fun content =>
        (bytesOf content).take c.taken := by
  obtain ⟨hx, hfd, -⟩ := hk.number fd x hd
  rcases replies_cases fd f with hnone | ⟨content, rfl⟩
  · rw [hnone, List.flatMap_nil, List.append_nil]
    refine sent_apply ?_ hx
    rintro bytes rfl
    obtain ⟨fd', content, rfl, hd'⟩ := write_origin h
    obtain rfl : fd' = fd := (hk.number fd' x hd').2.1.symm.trans hfd
    rw [replies_write] at hnone
    cases hnone
  · simpa using (write_step h hd).2

-- ---------------------------------------------------------------------------
-- A connection
-- ---------------------------------------------------------------------------

theorem Exec.descriptors_kept (h : system.Exec C s tr s') (hC : ∀ s l, C s l → l.op.closes ≠ some fd)
    (hd : s.shared.kernel.descriptors fd = some x) :
    s'.shared.kernel.descriptors fd = some x := by
  induction h with
  | refl => exact hd
  | step _ hc hs ih =>
    obtain ⟨fs, R, hm, -, -, hsh⟩ := hs.frames
    rw [hsh]
    exact XianNet.descriptors_kept (step_enabled hm) (hC _ _ hc) ih

/-- What the `write` of a label puts, where it is one for the number. -/
def put (fd : Int32) (l : Label) : List UInt8 :=
  (l.frame.replies fd).flatMap fun content => (bytesOf content).take l.choice.taken

theorem put_prefix (fd : Int32) (l : Label) : put fd l <+: (l.frame.replies fd).flatMap bytesOf := by
  rw [put]
  rcases replies_cases fd l.frame with hnone | ⟨content, hf⟩
  · rw [hnone]; exact List.nil_prefix
  · rw [hf, replies_write, List.flatMap_singleton, List.flatMap_singleton]
    exact List.take_prefix _ _

theorem put_eq_iff : put fd l = (l.frame.replies fd).flatMap bytesOf ↔ TakesAll fd l := by
  rw [put, flatMap_eq_iff_of_prefix fun content _ => List.take_prefix _ _]
  simp [TakesAll]

/-- What the kernel took of the replies while the number was open. -/
theorem Exec.sent_whole_iff (hreach : system.Reach Any (initial n p k) s)
    (h : system.Exec Any s tr s') (hopen : ∀ l ∈ tr, l.op.closes ≠ some fd)
    (hd : s.shared.kernel.descriptors fd = some x) :
    (s'.shared.kernel.files x).sent =
        (s.shared.kernel.files x).sent ++ (replies fd tr).flatMap bytesOf ↔
      ∀ l ∈ tr, TakesAll fd l := by
  have hiff := (h.of_forall hopen).whole_iff (fun σ => (σ.kernel.files x).sent) (put fd)
    (fun l => (l.frame.replies fd).flatMap bytesOf) ?_ fun l _ => put_prefix fd l
  · rw [replies, List.flatMap_assoc, hiff]
    exact forall₂_congr fun l _ => put_eq_iff
  · intro pre s₁ l s₂ hpre _ hs
    obtain ⟨fs, R, hm, -, -, hsh⟩ := hs.frames
    have hk := Reach.kernelOk (hreach.exec (hpre.mono fun _ _ _ => trivial))
    rw [hsh]
    exact sent_step hk hm (Exec.descriptors_kept hpre (fun _ _ hc => hc.2) hd)

/-- What is accepted under a number has got nothing yet. -/
theorem sent_opened {op : Op} (h : op.opens = some (fd, t)) :
    ((σ.apply op).kernel.files σ.kernel.allocated).sent = [] := by
  cases op <;> cases h <;> simp [Shared.apply, Kernel.accept, Kernel.files_openFile]

/-- A client is accepted as 6 and sends a byte; the kernel takes `n` bytes of
the reply. -/
theorem exists_replied (n : Int) (P : List Label × State → Prop) [DecidablePred P]
    (h : ((system.record Any (initial 1 (fun i => 1 <<< i) 1)
        (creates 3 ++ listens 3 5 0 ++ (2, .connect 0) :: polls 1 5 0)).any fun r₁ =>
      (system.next r₁.2 1 (.accepted 6 [])).any (fun r₂ =>
        r₂.1.op.opens = some (6, .client) ∧ (system.record Any r₂.2
          ((1, .go) :: (1, .ok) :: steps 1 6 ++ (2, .deliver 1 [104]) :: polls 1 6 1 ++
            steps 1 4 ++ steps 0 15 ++ [(0, .result 1), (0, .result 0), (0, .result n)])).any
          (fun r₃ => (∀ l' ∈ r₃.1, l'.op.closes ≠ some 6) ∧ Idle 6 r₃.2 ∧ P r₃) = true) = true) =
      true) :
    ∃ before l tr s, system.Exec Any (initial 1 (fun i => 1 <<< i) 1) (before ++ l :: tr) s ∧
      l.op.opens = some (6, .client) ∧ (∀ l' ∈ tr, l'.op.closes ≠ some 6) ∧ Idle 6 s ∧
      P (tr, s) := by
  obtain ⟨before, s₁, h₁, h⟩ := Machine.exists_of_record h
  obtain ⟨l, s₂, hs, -, -, haccept, h⟩ := Machine.exists_of_next h
  obtain ⟨tr, s, h₂, hopen, hidle, hP⟩ := Machine.exists_of_record h
  exact ⟨before, l, tr, s, h₁.trans ((Machine.Exec.single trivial hs).trans h₂), haccept, hopen,
    hidle, hP⟩

/-- The kernel has room for `hello` only. -/
theorem reply_torn : ∃ before l tr s,
    system.Exec Any (initial 1 (fun i => 1 <<< i) 1) (before ++ l :: tr) s ∧
    l.op.opens = some (6, .client) ∧ (∀ l' ∈ tr, l'.op.closes ≠ some 6) ∧ Idle 6 s ∧
    ¬ Whole 6 tr s :=
  exists_replied 5 (fun r => ¬ Whole 6 r.1 r.2) (by decide +kernel)

/-- After a client was accepted and while its number is open: whenever no
handler runs, the client has got the replies whole, in order and with none
missing if and only if the kernel took all of each at once. -/
theorem replies_whole_iff (h : system.Exec Any (initial n p k) (before ++ l :: tr) s)
    (haccept : l.op.opens = some (fd, .client)) (hopen : ∀ l' ∈ tr, l'.op.closes ≠ some fd)
    (hidle : Idle fd s) : Whole fd tr s ↔ ∀ l' ∈ tr, TakesAll fd l' := by
  obtain ⟨s₁, hbefore, h⟩ := h.split
  obtain ⟨s₂, -, hs, h⟩ := h.cons
  obtain ⟨fs, R, -, -, -, hsh⟩ := hs.frames
  have hd : s₂.shared.kernel.descriptors fd = some s₁.shared.kernel.allocated := by
    rw [hsh]
    exact (descriptors_opened haccept).trans (if_pos rfl)
  have hblank : (s₂.shared.kernel.files s₁.shared.kernel.allocated).sent = [] := by
    rw [hsh]
    exact sent_opened haccept
  have hsent := Exec.sent_whole_iff ⟨_, hbefore.step trivial hs⟩ h hopen hd
  have hkept := Exec.descriptors_kept (h.of_forall hopen) (fun _ _ hc => hc.2) hd
  rw [hblank, List.nil_append] at hsent
  rw [← hsent, Whole, hkept, hidle.held]
  simp

/-- It takes all eleven bytes. -/
theorem replies_whole_at_once : ∃ before l tr s,
    system.Exec Any (initial 1 (fun i => 1 <<< i) 1) (before ++ l :: tr) s ∧
    l.op.opens = some (6, .client) ∧ replies 6 tr = ["hello world"] ∧ Whole 6 tr s := by
  obtain ⟨before, l, tr, s, h, haccept, hopen, hidle, hreplies, htakes⟩ := exists_replied 11
    (fun r => replies 6 r.1 = ["hello world"] ∧ ∀ l' ∈ r.1, TakesAll 6 l') (by decide +kernel)
  exact ⟨before, l, tr, s, h, haccept, hreplies,
    (replies_whole_iff h haccept hopen hidle).mpr htakes⟩

end XianNet
