import VirtualMemory.Proofs.PartialTransfers

/-!
# Files that stand in for each other

The same calls are made of a file in memory and of one on the host. Both hold the same bytes all
along, zeros in the gaps, and both answer writes alike. They part in one thing: an empty write past
the end leaves a file on the host as it is, and stretches a file in memory. So they answer alike
as long as no empty write lies past the end, and after one only reads that reach into the stretch
tell them apart (`files_interchangeable`).
-/

namespace VirtualMemory

/-! ## Calls and answers -/

inductive FileCall
  | read (offset length : Nat)
  | write (offset : Nat) (data : Bytes)
  | close
  deriving DecidableEq

namespace FileCall

/-- The call stays below the offsets that a host refuses. -/
def InLimit : FileCall → Prop
  | read offset length => offset + length < HostFile.offsetLimit
  | write offset data => offset + data.length < HostFile.offsetLimit
  | close => True

instance : (call : FileCall) → Decidable call.InLimit
  | read offset length => inferInstanceAs (Decidable (offset + length < HostFile.offsetLimit))
  | write offset data =>
    inferInstanceAs (Decidable (offset + data.length < HostFile.offsetLimit))
  | close => inferInstanceAs (Decidable True)

def isClosed (past : List FileCall) : Bool := past.contains .close

/-- The end of what these calls have written. -/
def written : List FileCall → Nat
  | [] => 0
  | .write offset data :: past =>
    if isClosed past ∨ data = [] then written past else max (written past) (offset + data.length)
  | _ :: past => written past

/-- The end of the furthest write of these calls, be it an empty one. -/
def reached : List FileCall → Nat
  | [] => 0
  | .write offset data :: past =>
    if isClosed past then reached past else max (reached past) (offset + data.length)
  | _ :: past => reached past

/-- An empty write past the end of all that was written. -/
def Stretches (past : List FileCall) : FileCall → Prop
  | write offset data => isClosed past = false ∧ data = [] ∧ written past < offset
  | _ => False

/-- No call is an empty write past the end. -/
def Unstretched : List FileCall → Prop
  | [] => True
  | call :: past => ¬ call.Stretches past ∧ Unstretched past

/-- A read of an open file that reaches into what empty writes have stretched. -/
def ReadsStretch (past : List FileCall) : FileCall → Prop
  | read offset length => isClosed past = false ∧
      ∃ address, offset ≤ address ∧ address < offset + length ∧
        written past ≤ address ∧ address < reached past
  | _ => False

end FileCall

inductive FileAnswer
  | read (r : Except FileError Bytes)
  | written (r : Except FileError Nat)
  | done

/-- The answer with `n` more zeros at the end of the data, if it has any. -/
def FileAnswer.padded (n : Nat) : FileAnswer → FileAnswer
  | .read (.ok data) => .read (.ok (data ++ Bytes.zeros n))
  | a => a

def FileCall.after {φ : Type} (answer : φ → FileCall → FileAnswer × φ) (f : φ) : List FileCall → φ
  | [] => f
  | call :: past => (answer (after answer f past) call).2

def FileCall.answers {φ : Type} (answer : φ → FileCall → FileAnswer × φ) (f : φ) :
    List FileCall → List FileAnswer
  | [] => []
  | call :: past => (answer (after answer f past) call).1 :: answers answer f past

def BackingFile.answer (f : BackingFile) : FileCall → FileAnswer × BackingFile
  | .read offset length => (.read (f.readAt offset length), f)
  | .write offset data => let (r, f) := f.writeAt offset data; (.written r, f)
  | .close => (.done, f.close)

def HostHandle.answer (limits : TransferLimits) (h : HostHandle) :
    FileCall → FileAnswer × HostHandle
  | .read offset length => let (r, h) := h.readAt limits offset length; (.read r, h)
  | .write offset data => let (r, h) := h.writeAt limits offset data; (.written r, h)
  | .close => (.done, h.close)

namespace FileCall

variable {past : List FileCall} {call : FileCall} {m : MemoryFile} {h : HostFile}

/-! ## One transfer or many -/

theorem handle_answer {handle : HostHandle} (hh : handle.Of h) (limits : TransferLimits)
    (call : FileCall) :
    (handle.answer limits call).1 = ((BackingFile.host h).answer call).1 ∧
      ∃ h', ((BackingFile.host h).answer call).2 = .host h' ∧
        (handle.answer limits call).2.Of h' := by
  cases call with
  | read offset length =>
    obtain ⟨hr, hof⟩ := hh.readAt limits offset length
    exact ⟨congrArg FileAnswer.read hr, h, rfl, hof⟩
  | write offset data =>
    obtain ⟨hr, hof⟩ := hh.writeAt limits offset data
    exact ⟨congrArg FileAnswer.written hr, _, rfl, hof⟩
  | close => exact ⟨rfl, _, rfl, hh.close⟩

/-- Wherever the host cuts the transfers, the answers are those of the file in one piece. -/
theorem answers_handle (limits : TransferLimits) (calls : List FileCall) :
    answers (HostHandle.answer limits) .fresh calls = answers BackingFile.answer (.host {}) calls ∧
      ∃ h, after BackingFile.answer (.host {}) calls = .host h ∧
        (after (HostHandle.answer limits) .fresh calls).Of h := by
  induction calls with
  | nil => exact ⟨rfl, _, rfl, HostHandle.of_fresh⟩
  | cons call past ih =>
    obtain ⟨heq, h, hafter, hof⟩ := ih
    obtain ⟨hr, h', hafter', hof'⟩ := handle_answer hof limits call
    rw [answers, answers, after, after, hafter, heq, hr]
    exact ⟨rfl, h', hafter', hof'⟩

/-! ## In memory and on the host -/

theorem written_le_reached (past : List FileCall) : written past ≤ reached past := by
  induction past with
  | nil => exact Nat.le_refl 0
  | cons call past ih =>
    cases call with
    | write offset data =>
      cases hc : isClosed past with
      | true => simpa [written, reached, hc] using ih
      | false =>
        by_cases hd : data = []
        · simp only [written, reached, hc, hd, Bool.false_eq_true, or_true, if_true, if_false]
          exact Nat.le_trans ih (Nat.le_max_left _ _)
        · simp only [written, reached, hc, hd, Bool.false_eq_true, or_self, if_false]
          omega
    | read => exact ih
    | close => exact ih

/-- Only an empty write past the end can make a difference between the two ends. -/
theorem reached_eq_written (h : Unstretched past) : reached past = written past := by
  induction past with
  | nil => rfl
  | cons call past ih =>
    obtain ⟨hcall, hpast⟩ := h
    have ih := ih hpast
    cases call with
    | write offset data =>
      cases hc : isClosed past with
      | true => simpa [written, reached, hc] using ih
      | false =>
        by_cases hd : data = []
        · have hle : offset ≤ written past := Nat.le_of_not_lt fun hlt => hcall ⟨hc, hd, hlt⟩
          simpa [written, reached, hc, hd, ih] using Nat.max_eq_left hle
        · simp [written, reached, hc, hd, ih]
    | read => exact ih
    | close => exact ih

/-- The two files are as these calls leave them. -/
structure LeftBy (past : List FileCall) (m : MemoryFile) (h : HostFile) : Prop where
  memoryClosed : m.closed = isClosed past
  hostClosed : h.closed = isClosed past
  memorySize : m.contents.size = reached past
  hostSize : h.contents.size = written past
  bytes : ∀ address, m.contents.byte address = h.contents.byte address

theorem leftBy_nil : LeftBy [] {} {} := ⟨rfl, rfl, rfl, rfl, fun _ => rfl⟩

theorem LeftBy.write (hl : LeftBy past m h) {offset : Nat} {data : Bytes}
    (hlimit : offset + data.length < HostFile.offsetLimit) :
    (m.writeAt offset data).1 = (h.writeAt offset data).1 ∧
      LeftBy (.write offset data :: past) (m.writeAt offset data).2 (h.writeAt offset data).2 := by
  have hclosed : isClosed (.write offset data :: past) = isClosed past := rfl
  cases hc : isClosed past with
  | true =>
    simp only [MemoryFile.writeAt, HostFile.writeAt, hl.memoryClosed, hl.hostClosed, hc, if_true]
    refine ⟨trivial, ?_, ?_, ?_, ?_, hl.bytes⟩
    · rw [hclosed, hl.memoryClosed]
    · rw [hclosed, hl.hostClosed]
    · rw [hl.memorySize, reached, hc, if_pos rfl]
    · rw [hl.hostSize, written, hc, if_pos (Or.inl rfl)]
  | false =>
    simp only [MemoryFile.writeAt, HostFile.writeAt, hl.memoryClosed, hl.hostClosed, hc,
      Bool.false_eq_true, if_false, Nat.not_le.mpr hlimit]
    refine ⟨trivial, ?_, ?_, ?_, ?_, ?_⟩
    · rw [hclosed, hc]
    · rw [hclosed, hc]
    · rw [ByteStore.size_poke, ByteStore.size_extend, hl.memorySize, reached, hc,
        if_neg Bool.false_ne_true]
    · rw [ByteStore.size_overwrite, hl.hostSize, written, hc]
      simp
    · intro address
      rw [ByteStore.byte_poke, ByteStore.size_extend, ByteStore.byte_extend,
        ByteStore.byte_overwrite, hl.bytes]
      by_cases hin : offset ≤ address ∧ address < offset + data.length
      · rw [if_pos hin, if_pos (by omega)]
      · rw [if_neg hin, if_neg (by omega)]

theorem LeftBy.answer (hl : LeftBy past m h) (hlimit : call.InLimit) :
    ∃ m' h', ((BackingFile.memory m).answer call).2 = .memory m' ∧
      ((BackingFile.host h).answer call).2 = .host h' ∧ LeftBy (call :: past) m' h' := by
  cases call with
  | read offset length =>
    exact ⟨m, h, rfl, rfl, hl.memoryClosed, hl.hostClosed, hl.memorySize, hl.hostSize, hl.bytes⟩
  | write offset data => exact ⟨_, _, rfl, rfl, (hl.write hlimit).2⟩
  | close => exact ⟨_, _, rfl, rfl, rfl, rfl, hl.memorySize, hl.hostSize, hl.bytes⟩

theorem leftBy_after (hlimit : ∀ call ∈ past, call.InLimit) :
    ∃ m h, after BackingFile.answer (.memory {}) past = .memory m ∧
      after BackingFile.answer (.host {}) past = .host h ∧ LeftBy past m h := by
  induction past with
  | nil => exact ⟨_, _, rfl, rfl, leftBy_nil⟩
  | cons call past ih =>
    obtain ⟨hcall, hpast⟩ := List.forall_mem_cons.mp hlimit
    obtain ⟨m, h, hm, hh, hl⟩ := ih hpast
    rw [after, after, hm, hh]
    exact hl.answer hcall

/-! ## Their answers -/

/-- What the file in memory delivers is what the host delivers, and the zeros of the stretch. -/
theorem LeftBy.read (hl : LeftBy past m h) (offset length : Nat) :
    m.contents.read offset length = h.contents.read offset length ++
      Bytes.zeros (min length (reached past - offset) - min length (written past - offset)) := by
  have hle := written_le_reached past
  obtain ⟨n, hn⟩ := Nat.exists_eq_add_of_le
    (show min length (written past - offset) ≤ min length (reached past - offset) by omega)
  rw [ByteStore.read_eq, ByteStore.read_eq, hl.memorySize, hl.hostSize, hn,
    ← List.range'_append_1, List.map_append, Nat.add_sub_cancel_left]
  congr 1
  · exact List.map_congr_left fun address _ => hl.bytes address
  · refine List.eq_replicate_iff.mpr ⟨by simp, ?_⟩
    intro b hb
    obtain ⟨address, hin, rfl⟩ := List.mem_map.mp hb
    rw [List.mem_range'_1] at hin
    rw [hl.bytes, ByteStore.byte_eq_zero _ (by rw [hl.hostSize]; omega)]

/-- The answers agree but for zeros at the end of what is read, and differ in those exactly when
the call reads the stretch. -/
theorem LeftBy.answers_agree (hl : LeftBy past m h) (hlimit : call.InLimit) :
    (∃ n, ((BackingFile.memory m).answer call).1 =
        ((BackingFile.host h).answer call).1.padded n) ∧
      (((BackingFile.memory m).answer call).1 = ((BackingFile.host h).answer call).1 ↔
        ¬ call.ReadsStretch past) := by
  cases call with
  | read offset length =>
    simp only [BackingFile.answer, BackingFile.readAt, MemoryFile.readAt, HostFile.readAt,
      hl.memoryClosed, hl.hostClosed, ReadsStretch]
    cases hc : isClosed past with
    | true => exact ⟨⟨0, rfl⟩, by simp⟩
    | false =>
      have hoffset : ¬ HostFile.offsetLimit ≤ offset := by
        simp only [InLimit] at hlimit
        omega
      simp only [hoffset, hl.read, Bool.false_eq_true, if_false]
      refine ⟨⟨_, rfl⟩, ?_⟩
      have hle := written_le_reached past
      rw [FileAnswer.read.injEq, Except.ok.injEq, List.append_right_eq_self, Bytes.zeros,
        List.replicate_eq_nil_iff]
      constructor
      · rintro hsame ⟨-, address, hin⟩
        omega
      · intro hnone
        refine Nat.eq_zero_of_not_pos fun hdiffer => ?_
        exact hnone ⟨trivial, max offset (written past), by omega⟩
  | write offset data =>
    refine ⟨⟨0, ?_⟩, ?_⟩
    · exact congrArg FileAnswer.written (hl.write hlimit).1
    · exact ⟨fun _ => id, fun _ => congrArg FileAnswer.written (hl.write hlimit).1⟩
  | close => exact ⟨⟨0, rfl⟩, fun _ => id, fun _ => rfl⟩

theorem not_readsStretch (h : Unstretched past) : ¬ call.ReadsStretch past := by
  cases call with
  | read offset length =>
    rintro ⟨-, address, hin⟩
    rw [reached_eq_written h] at hin
    omega
  | write => exact id
  | close => exact id

theorem answers_eq {calls : List FileCall} (hlimit : ∀ call ∈ calls, call.InLimit)
    (h : Unstretched calls) :
    answers BackingFile.answer (.memory {}) calls =
      answers BackingFile.answer (.host {}) calls := by
  induction calls with
  | nil => rfl
  | cons call past ih =>
    obtain ⟨hcall, hpast⟩ := List.forall_mem_cons.mp hlimit
    obtain ⟨m, h', hm, hh, hl⟩ := leftBy_after hpast
    rw [answers, answers, ih hpast h.2, hm, hh,
      (hl.answers_agree hcall).2.mpr (not_readsStretch h.2)]

/-- Through every sequence of calls a file just created on the host, wherever the host cuts its
transfers, answers as one of which every call is one transfer. A new file in memory holds the same
bytes after the calls, and gives the same answers if no call is an empty write past the end; and
whatever the calls, the two agree in every answer but to a read of what such a write has stretched,
where the file in memory delivers more zeros. -/
theorem files_interchangeable (limits : TransferLimits) {f : HostFile}
    (hcreated : HostFile.create .writable = .ok f) {calls : List FileCall}
    (hlimit : ∀ call ∈ calls, call.InLimit) :
    answers (HostHandle.answer limits) .fresh calls = answers BackingFile.answer (.host f) calls ∧
    (∀ address, (after BackingFile.answer (.memory {}) calls).store.byte address =
      (after BackingFile.answer (.host f) calls).store.byte address) ∧
    (Unstretched calls →
      answers BackingFile.answer (.memory {}) calls = answers BackingFile.answer (.host f) calls) ∧
    ∀ call past, call :: past <:+ calls →
      ∃ inMemory onHost,
        ((after BackingFile.answer (.memory {}) past).answer call).1 = inMemory ∧
        ((after BackingFile.answer (.host f) past).answer call).1 = onHost ∧
        (∃ n, inMemory = onHost.padded n) ∧ (inMemory = onHost ↔ ¬ call.ReadsStretch past) := by
  cases hcreated
  refine ⟨(answers_handle limits calls).1, ?_, ?_, ?_⟩
  · obtain ⟨m, h, hm, hh, hl⟩ := leftBy_after hlimit
    rw [hm, hh]
    exact hl.bytes
  · exact answers_eq hlimit
  · intro call past hsuffix
    obtain ⟨hcall, hpast⟩ := List.forall_mem_cons.mp fun c hc => hlimit c (hsuffix.subset hc)
    obtain ⟨m, h, hm, hh, hl⟩ := leftBy_after hpast
    rw [hm, hh]
    exact ⟨_, _, rfl, rfl, hl.answers_agree hcall⟩

/-- A write past the end, one across what it wrote, an empty one inside, and reads up to and across
the end. -/
def sparseCalls : List FileCall :=
  [.read 9 3, .close, .read 0 20, .read 4 3, .write 6 [], .write 7 [3, 4, 5], .write 5 [1, 2, 9]]

theorem files_interchangeable_sparse :
    Unstretched sparseCalls ∧
    answers (HostHandle.answer id) .fresh sparseCalls =
      answers BackingFile.answer (.memory {}) sparseCalls ∧
    answers BackingFile.answer (.memory {}) sparseCalls =
      [.read (.error .closed), .done, .read (.ok [0, 0, 0, 0, 0, 1, 2, 3, 4, 5]),
        .read (.ok [0, 1, 2]), .written (.ok 0), .written (.ok 3), .written (.ok 3)] := by
  have hsound := files_interchangeable id (f := {}) rfl
    (show ∀ call ∈ sparseCalls, call.InLimit by decide)
  have hunstretched : Unstretched sparseCalls := by
    simp [sparseCalls, Unstretched, Stretches, isClosed, written]
  exact ⟨hunstretched, hsound.1.trans (hsound.2.2.1 hunstretched).symm, rfl⟩

/-- After an empty write past the end, the file in memory has grown and that of the host has not. -/
theorem empty_write_stretches :
    (∀ call ∈ [FileCall.read 0 10, .write 5 []], call.InLimit) ∧
    HostFile.create .writable = .ok {} ∧
    answers BackingFile.answer (.memory {}) [.read 0 10, .write 5 []] =
      [.read (.ok [0, 0, 0, 0, 0]), .written (.ok 0)] ∧
    answers BackingFile.answer (.host {}) [.read 0 10, .write 5 []] =
      [.read (.ok []), .written (.ok 0)] :=
  ⟨by decide, rfl, rfl, rfl⟩

end FileCall

end VirtualMemory
