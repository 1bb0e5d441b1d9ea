import XianNet.Mailbox
import XianNet.Workers

/-!
# How many messages a worker takes

`StartServiceWorker` gives worker `i` batches of `1 << i` messages, an `int`.
The shift leaves the range at `i = 31` and has no meaning from `i = 32` on,
and nothing checks `thread_size`. Up to 31 workers every batch is positive
(`batches_positive_iff`); a worker whose batch is not never takes a message
(`Exec.batch_pos`).
-/

namespace XianNet

open Interleaving

variable {σ : Shared} {C : State → Label → Prop} {s s' : State} {tr tr' : List Label}

-- ---------------------------------------------------------------------------
-- The sizes
-- ---------------------------------------------------------------------------

/-- `a << count` for `int`: the low 32 bits, where the count is in range. -/
def shiftLeft (a count : Int32) : Option Int32 :=
  if 0 ≤ count ∧ count < 32 then some (a <<< count) else none

/-- `processing_num_` of worker `i`. -/
def processingNum (i : Int32) : Option Int32 := shiftLeft 1 i

/-- The workers that `StartServiceWorker` makes for a `core.thread_size`, or
`none` where it shifts out of range. -/
def serviceWorkers (threadSize : Int32) : Option (List ServiceWorker) :=
  (List.range threadSize.toInt.toNat).mapM fun i =>
    (processingNum (Int32.ofNat i)).map fun num => ⟨i, num.toInt⟩

theorem exists_ofNat {i : Int32} (h0 : 0 ≤ i) (h : i < 31) : ∃ n < 31, i = Int32.ofNat n := by
  rw [Int32.le_iff_toInt_le] at h0
  rw [Int32.lt_iff_toInt_lt] at h
  have hlt : i.toInt < 31 := h
  have hle : 0 ≤ i.toInt := h0
  refine ⟨i.toInt.toNat, by omega, ?_⟩
  rw [← Int32.toInt_inj, Int32.toInt_ofNat_of_lt (by omega)]
  omega

theorem processingNum_eq (h : n < 31) :
    processingNum (Int32.ofNat n) = some (Int32.ofNat (2 ^ n)) := by
  revert n
  decide

theorem isSome_mapM_range {f : Nat → Option α} :
    ((List.range n).mapM f).isSome ↔ ∀ i < n, (f i).isSome := by
  induction n with
  | zero => simp
  | succ n ih =>
    rw [List.range_succ, List.mapM_append, Nat.forall_lt_succ_right, ← ih]
    cases (List.range n).mapM f <;> cases hf : f n <;> simp [hf]

/-- More than 32 workers cannot be started. -/
theorem serviceWorkers_isSome_iff : (serviceWorkers threadSize).isSome ↔ threadSize ≤ 32 := by
  have hinRange : ∀ i < 32, (processingNum (Int32.ofNat i)).isSome := by decide
  have h32 : (32 : Int32).toInt = 32 := rfl
  rw [serviceWorkers, isSome_mapM_range, Int32.le_iff_toInt_le]
  simp only [Option.isSome_map]
  constructor
  · intro hall
    by_contra hgt
    have hno := hall 32 (by omega)
    cases hno
  · intro hle i hi
    exact hinRange i (by omega)

/-- Up to 31 workers are started, worker `i` with `2 ^ i`. -/
theorem serviceWorkers_eq (h : threadSize ≤ 31) :
    serviceWorkers threadSize =
      some ((List.range threadSize.toInt.toNat).map fun i => ⟨i, 2 ^ i⟩) := by
  have hsize : threadSize.toInt.toNat ≤ 31 := Int.toNat_le.mpr (Int32.le_iff_toInt_le.mp h)
  rw [serviceWorkers]
  generalize threadSize.toInt.toNat = n at hsize
  induction n with
  | zero => rfl
  | succ n ih =>
    have hnum : (Int32.ofNat (2 ^ n)).toInt = 2 ^ n := by
      rw [Int32.toInt_ofNat_of_lt (Nat.pow_lt_pow_right (by decide) hsize)]
      simp
    rw [List.range_succ, List.mapM_append, ih (Nat.le_of_succ_le hsize), List.mapM_cons,
      processingNum_eq hsize, Option.map_some, hnum]
    simp

/-- These are the threads of the system. -/
theorem startServiceWorker_eq (h : threadSize ≤ 31) :
    (serviceWorkers threadSize).map (·.map fun w => [Frame.worker w .popFront]) =
      some (startServiceWorker threadSize.toInt.toNat fun i => 2 ^ i) := by
  rw [serviceWorkers_eq h]
  simp [startServiceWorker]

-- ---------------------------------------------------------------------------
-- Taking a message
-- ---------------------------------------------------------------------------

/-- A worker that has started on a service with messages, and that alone takes
any from it: its next step there takes one, whatever the other threads did in
between. -/
def Removes (w : ServiceWorker) : Prop :=
  ∀ n p k tr s t r rest tr' s', system.Exec Any (initial n p k) tr s →
    s.threads[t]? = some (.worker w (.processMessages r 0) :: rest) →
    (s.shared.services r).messageQueue ≠ [] → system.Exec Any s tr' s' →
    (∀ l ∈ tr', l.thread ≠ t ∧ l.op.poppedFrom r = []) →
    ∀ c, ∃ f m s'', system.Step s' ⟨t, f, c, .popMessage r m⟩ s''

/-- A queue nobody takes from keeps its messages. -/
theorem Exec.queue_prefix (h : system.Exec Any (initial n p k) tr s) (h' : system.Exec Any s tr' s')
    (hno : ∀ l ∈ tr', l.op.poppedFrom r = []) :
    (s.shared.services r).messageQueue <+: (s'.shared.services r).messageQueue := by
  have hbefore := mailbox_fifo h r
  have hafter := mailbox_fifo (h.trans h') r
  have hpopped : poppedFrom r (tr ++ tr') = poppedFrom r tr := by
    rw [poppedFrom, List.flatMap_append, List.flatMap_eq_nil_iff.mpr hno, List.append_nil,
      poppedFrom]
  rw [hpopped, pushedTo, List.flatMap_append, ← pushedTo, hbefore, List.append_assoc] at hafter
  exact ⟨_, List.append_cancel_left hafter⟩

theorem removes_of_pos {w : ServiceWorker} (hw : 1 ≤ w.processingNum) : Removes w := by
  intro n p k tr s t r rest tr' s' h htop hq h' halone c
  have hstays : s'.threads[t]? = some (.worker w (.processMessages r 0) :: rest) := by
    rw [h'.stays fun l hl => (halone l hl).1, htop]
  obtain ⟨m, messages, hm⟩ : ∃ m messages, (s'.shared.services r).messageQueue = m :: messages := by
    refine List.exists_cons_of_ne_nil fun hnil => hq ?_
    have hpre := Exec.queue_prefix h h' fun l hl => (halone l hl).2
    rwa [hnil, List.prefix_nil] at hpre
  have hpos : ((0 : Nat) : Int) < w.processingNum := hw
  have hstep : Frame.step s'.shared (.worker w (.processMessages r 0)) c = some (.popMessage r m,
      [.handler r m, .worker w (.processMessages r (0 + 1))]) := by
    simp only [Frame.step, WorkerPc.step, if_pos hpos, hm, SpinlockQueue.popFront]
  obtain ⟨s'', hs, -⟩ := Machine.exists_step (M := system) hstays hstep
  exact ⟨_, m, s'', hs⟩

/-- In no run does a worker take a message whose batch is not positive. -/
theorem Exec.batch_pos (h : system.Exec C s tr s') :
    ∀ l ∈ tr, ∀ r m, l.op = .popMessage r m →
      ∃ w pc, l.frame = .worker w pc ∧ 1 ≤ w.processingNum := by
  induction h with
  | refl => simp
  | step _ _ hs ih =>
    intro l hl r m hop
    rcases List.mem_append.mp hl with hl | hl
    · exact ih l hl r m hop
    · obtain ⟨fs, R, hm, -, -, -⟩ := hs.frames
      rw [← List.mem_singleton.mp hl, hop] at hm
      obtain ⟨w, i, messages, hf, -, hlt, -⟩ := popMessage_op hm
      exact ⟨w, _, hf, by omega⟩

-- ---------------------------------------------------------------------------
-- Every worker
-- ---------------------------------------------------------------------------

/-- Worker `i` has a batch: at least one message, twice that of the worker
before, and enough to take one. -/
def BatchOk (i : Int32) : Prop :=
  ∃ num, processingNum i = some num ∧ 1 ≤ num ∧
    (0 < i → ∃ prev, processingNum (i - 1) = some prev ∧ num.toInt = 2 * prev.toInt) ∧
    Removes ⟨i.toInt.toNat, num.toInt⟩

theorem batchOk_of_lt {i : Int32} (h0 : 0 ≤ i) (h : i < 31) : BatchOk i := by
  obtain ⟨n, hn, rfl⟩ := exists_ofNat h0 h
  have hsize : ∀ n < 31, (1 : Int32) ≤ Int32.ofNat (2 ^ n) := by decide
  have hdouble : ∀ n < 31, 0 < Int32.ofNat n →
      ∃ prev, processingNum (Int32.ofNat n - 1) = some prev ∧
        (Int32.ofNat (2 ^ n)).toInt = 2 * prev.toInt := by decide
  refine ⟨_, processingNum_eq hn, hsize n hn, hdouble n hn, removes_of_pos ?_⟩
  exact Int32.le_iff_toInt_le.mp (hsize n hn)

theorem not_batchOk_31 : ¬ BatchOk 31 := by
  rintro ⟨num, hnum, hpos, -⟩
  cases hnum
  revert hpos
  decide

/-- With 32 workers the last one has a negative batch. -/
theorem batch_overflows : (1 : Int32) ≤ 32 ∧ ¬ ∀ i : Int32, 0 ≤ i → i < 32 → BatchOk i := by
  refine ⟨by decide, fun h => ?_⟩
  exact not_batchOk_31 (h 31 (by decide) (by decide))

/-- Every worker has a positive batch if and only if there are at most 31. -/
theorem batches_positive_iff (threadSize : Int32) :
    (∀ i : Int32, 0 ≤ i → i < threadSize → BatchOk i) ↔ threadSize ≤ 31 := by
  constructor
  · intro hok
    by_contra hgt
    exact not_batchOk_31 (hok 31 (by decide) (Int32.not_le.mp hgt))
  · intro hle i h0 hlt
    exact batchOk_of_lt h0 (Int32.lt_of_lt_of_le hlt hle)

end XianNet
