import VirtualMemory.Proofs.FrameQueue
import Mathlib.Data.List.Perm.Basic

/-!
# The frames over time

Frames are taken and given back by any calls, good ones and bad ones. The answers alone tell which
frames are free and since which call (`freeSince`). `Tracked` says that the allocator agrees: its
queue holds the frames in the order in which they became free, the marks name the same frames, and
the counter is the number of the others. Each call keeps this (`Tracked.run`), so no frame is lost
and none is handed out twice, and the one that has been free longest goes first.
-/

namespace VirtualMemory.Frames

variable {f : Frames} {ppn q other : Ppn} {rest : List Ppn} {total now : Nat}

/-! ## Counting -/

/-- A frame that is not free takes up room. -/
theorem WellFormed.freeCount_lt (h : f.WellFormed) (hlt : ppn.toNat < f.total)
    (hused : f.isFree ppn = false) : f.freeCount < f.total := by
  have hnot := h.not_mem hused
  have hnodup : ((ppn :: f.free).map UInt32.toNat).Nodup := by
    refine List.Nodup.map (fun _ _ => UInt32.toNat_inj.mp) ?_
    exact List.nodup_cons.mpr ⟨hnot, h.nodup⟩
  have hsubset : (ppn :: f.free).map UInt32.toNat ⊆ List.range f.total := by
    intro i hi
    obtain ⟨q, hq, rfl⟩ := List.mem_map.mp hi
    rw [List.mem_range]
    rcases List.mem_cons.mp hq with rfl | hq
    · exact hlt
    · exact lt_total_of_isFree (h.isFree_of_mem hq)
  have hle := (List.subperm_of_subset hnodup hsubset).length_le
  simp only [List.length_map, List.length_cons, List.length_range] at hle
  exact hle

/-- No frame is free exactly if every frame is marked as allocated. -/
theorem WellFormed.free_eq_nil_iff (h : f.WellFormed) (hwords : f.InWord) :
    f.free = [] ↔ ∀ i < f.total, f.allocated[i]? = some true := by
  constructor
  · intro hnil i hi
    have hword := toNat_word (Nat.lt_trans hi hwords)
    have hused : f.isFree i.toUInt32 = false := by
      rw [← Bool.not_eq_true, ← h.mem_free_iff hwords, hnil]
      exact List.not_mem_nil
    have hmark := mark_of_lt (hword.symm ▸ hi : i.toUInt32.toNat < f.total)
    rwa [hused, hword] at hmark
  · intro hall
    rw [List.eq_nil_iff_forall_not_mem]
    intro ppn hmem
    have hfree := h.isFree_of_mem hmem
    have hmark := hall ppn.toNat (lt_total_of_isFree hfree)
    rw [isFree_iff.mp hfree] at hmark
    cases hmark

/-! ## Calls and what their answers tell -/

inductive Call
  | acquire
  | release (ppn : Ppn)

inductive Answer
  | acquired (frame : Option Ppn)
  | released (result : Except MemoryError Unit)

def Call.run : Call → Op Frames Empty Answer
  | acquire => do return .acquired (← modifyGet Frames.acquire)
  | release ppn => do return .released (← Op.attempt (Frames.release ppn))

/-- `total` frames after these calls, the latest of which comes first. -/
def after (total : Nat) : List Call → Frames
  | [] => ofTotal total
  | call :: past => (call.run (after total past)).state

/-- The number of the call since which a frame is free, for the frames that are. -/
abbrev FreeSince : Type := Ppn → Option Nat

/-- What is known after call number `now` had this answer. -/
def FreeSince.learn (since : FreeSince) (now : Nat) : Call → Answer → FreeSince
  | .acquire, .acquired (some ppn) => Function.update since ppn none
  | .release ppn, .released (.ok _) => Function.update since ppn (some now)
  | _, _ => since

/-- What the answers to these calls tell. Before the first call all frames are free. -/
def freeSince (total : Nat) : List Call → FreeSince
  | [] => fun ppn => if ppn.toNat < total then some 0 else none
  | call :: past =>
    (freeSince total past).learn (past.length + 1) call (Op.value (call.run (after total past)))

/-- Both frames are free, and the first has been so for longer. Of two frames that were never taken
it is the lower one. -/
def FreeLonger (since : FreeSince) (ppn q : Ppn) : Prop :=
  ∃ i j, since ppn = some i ∧ since q = some j ∧ (i < j ∨ i = 0 ∧ j = 0 ∧ ppn < q)

variable {since : FreeSince}

theorem freeLonger_update (hp : ppn ≠ other) (hq : q ≠ other) (moment : Option Nat) :
    FreeLonger (Function.update since other moment) ppn q ↔ FreeLonger since ppn q := by
  simp [FreeLonger, hp, hq]

/-! ## One call -/

/-- After `now` calls the allocator is as the answers tell. -/
structure Tracked (total now : Nat) (since : FreeSince) (f : Frames) : Prop where
  wellFormed : f.WellFormed
  total_eq : f.total = total
  mem_iff : ∀ ppn, ppn ∈ f.free ↔ (since ppn).isSome = true
  counted : f.used + f.freeCount = total
  le_now : ∀ ppn i, since ppn = some i → i ≤ now
  ordered : f.free.Pairwise (FreeLonger since)

theorem tracked_ofTotal (h : total < 0x100000000) :
    Tracked total 0 (freeSince total []) (ofTotal total) where
  wellFormed := wellFormed_ofTotal (Nat.le_of_lt h)
  total_eq := rfl
  mem_iff ppn := by
    rw [free_ofTotal h, mem_words (Nat.le_of_lt h)]
    simp [freeSince]
  counted := by
    rw [freeCount, free_ofTotal h, List.length_map, List.length_range]
    exact Nat.zero_add total
  le_now ppn i hi := by
    simp only [freeSince, Option.ite_none_right_eq_some, Option.some.injEq] at hi
    omega
  ordered := by
    rw [free_ofTotal h]
    refine List.pairwise_map.mpr (List.pairwise_lt_range.imp_of_mem ?_)
    intro i j hi hj hij
    rw [List.mem_range] at hi hj
    have hi' := toNat_word (Nat.lt_trans hi h)
    have hj' := toNat_word (Nat.lt_trans hj h)
    have hlower : i.toUInt32 < j.toUInt32 := by rwa [UInt32.lt_iff_toNat_lt, hi', hj']
    exact ⟨0, 0, by simp [freeSince, hi', hi], by simp [freeSince, hj', hj],
      .inr ⟨rfl, rfl, hlower⟩⟩

theorem Tracked.later (h : Tracked total now since f) : Tracked total (now + 1) since f :=
  { h with le_now := fun ppn i hi => Nat.le_succ_of_le (h.le_now ppn i hi) }

theorem Tracked.exhausted (h : Tracked total now since f) :
    Tracked total (now + 1) since { f with failed := f.failed + 1 } :=
  ⟨⟨h.wellFormed.nodup, h.wellFormed.mem_free, h.wellFormed.idle⟩, h.total_eq, h.mem_iff,
    h.counted, h.later.le_now, h.ordered⟩

theorem Tracked.taken (h : Tracked total now since f) (hfree : f.free = ppn :: rest) :
    Tracked total (now + 1) (Function.update since ppn none) (f.without ppn rest) := by
  have hnodup := h.wellFormed.nodup
  rw [hfree, List.nodup_cons] at hnodup
  refine ⟨h.wellFormed.without hfree, (total_without f ppn rest).trans h.total_eq, ?_, ?_, ?_, ?_⟩
  · intro q
    show q ∈ rest ↔ _
    by_cases hq : q = ppn
    · simp [hq, hnodup.1]
    · simp [hq, ← h.mem_iff, hfree]
  · have hcount := h.counted
    simp only [freeCount, hfree, List.length_cons] at hcount
    simp only [Frames.without, freeCount]
    omega
  · intro q i hi
    by_cases hq : q = ppn
    · simp [hq] at hi
    · exact h.later.le_now q i (by simpa [hq] using hi)
  · have hordered := h.ordered
    rw [hfree, List.pairwise_cons] at hordered
    refine hordered.2.imp_of_mem ?_
    intro p q hp hq hlonger
    have hp' := ne_of_mem_of_not_mem hp hnodup.1
    have hq' := ne_of_mem_of_not_mem hq hnodup.1
    exact (freeLonger_update hp' hq' none).mpr hlonger

theorem Tracked.returned (h : Tracked total now since f) (hlt : ppn.toNat < f.total)
    (hused : f.isFree ppn = false) :
    Tracked total (now + 1) (Function.update since ppn (some (now + 1))) (f.withFree ppn) := by
  have hnot := h.wellFormed.not_mem hused
  refine ⟨h.wellFormed.withFree hlt hused, (total_withFree f ppn).trans h.total_eq, ?_, ?_, ?_, ?_⟩
  · intro q
    show q ∈ f.free ++ [ppn] ↔ _
    by_cases hq : q = ppn
    · simp [hq]
    · simp [hq, h.mem_iff]
  · have hroom := h.wellFormed.freeCount_lt hlt hused
    have hcount := h.counted
    have htotal := h.total_eq
    simp only [freeCount] at hroom hcount
    simp only [Frames.withFree, freeCount, List.length_append, List.length_singleton]
    omega
  · intro q i hi
    by_cases hq : q = ppn
    · simp [hq] at hi
      omega
    · exact h.later.le_now q i (by simpa [hq] using hi)
  · -- the frame that comes back was not in the queue, and no frame in it became free later
    refine List.pairwise_append.mpr ⟨?_, List.pairwise_singleton _ _, ?_⟩
    · refine h.ordered.imp_of_mem ?_
      intro p q hp hq hlonger
      have hp' := ne_of_mem_of_not_mem hp hnot
      have hq' := ne_of_mem_of_not_mem hq hnot
      exact (freeLonger_update hp' hq' (some (now + 1))).mpr hlonger
    · intro p hp q hq
      obtain rfl := List.mem_singleton.mp hq
      have hne := ne_of_mem_of_not_mem hp hnot
      obtain ⟨i, hi⟩ := Option.isSome_iff_exists.mp ((h.mem_iff p).mp hp)
      have hle := h.le_now p i hi
      exact ⟨i, now + 1, by simp [hne, hi], by simp, .inl (by omega)⟩

theorem Tracked.run (h : Tracked total now since f) (call : Call) :
    call.run.Ends f fun result f' => ∃ answer, result = .ok answer ∧
      Tracked total (now + 1) (since.learn (now + 1) call answer) f' := by
  cases call with
  | acquire =>
    simp only [Call.run, Op.ends_bind, Op.ends_modifyGet, Op.ends_pure]
    cases hfree : f.free with
    | nil =>
      rw [acquire_nil hfree]
      exact ⟨_, rfl, h.exhausted⟩
    | cons ppn rest =>
      rw [acquire_cons hfree]
      exact ⟨_, rfl, h.taken hfree⟩
  | release ppn =>
    simp only [Call.run, Op.ends_bind, Op.ends_attempt, Op.ends_pure]
    refine (release_ends ppn f).imp ?_
    rintro _ _ (hout | hfree | ⟨hlt, hused⟩)
    · exact ⟨_, rfl, h.later⟩
    · exact ⟨_, rfl, h.later⟩
    · exact ⟨_, rfl, h.returned hlt hused⟩

/-! ## Every run -/

theorem tracked_after (h : total < 0x100000000) (calls : List Call) :
    Tracked total calls.length (freeSince total calls) (after total calls) := by
  induction calls with
  | nil => exact tracked_ofTotal h
  | cons call past ih =>
    obtain ⟨answer, hanswer, hnext⟩ := ih.run call
    rw [Op.result_eq_value] at hanswer
    rw [← Except.ok.inj hanswer] at hnext
    exact hnext

/-- Queue, marks and counter are three views of the frames that are free by the answers so far. What
comes next goes by them: the frame that has been free longest is taken, unless all are allocated,
and exactly the allocated frames can be given back. -/
structure Accounted (total : Nat) (since : FreeSince) (f : Frames) : Prop where
  nodup : f.free.Nodup
  mem_free : ∀ ppn, ppn ∈ f.free ↔ ppn.toNat < total ∧ f.allocated[ppn.toNat]? = some false
  mem_since : ∀ ppn, ppn ∈ f.free ↔ (since ppn).isSome = true
  marks : f.allocated.size = total
  used_eq : f.used = total - f.freeCount
  freeCount_le : f.freeCount ≤ total
  takes_none : f.acquire.1 = none ↔ ∀ i < total, f.allocated[i]? = some true
  takes_longest : ∀ ppn, f.acquire.1 = some ppn →
    ppn.toNat < total ∧ f.allocated[ppn.toNat]? = some false ∧
      ∀ q, q.toNat < total → f.allocated[q.toNat]? = some false → q ≠ ppn → FreeLonger since ppn q
  returns : ∀ ppn, (release ppn f).result = .ok () ↔
    ppn.toNat < total ∧ f.allocated[ppn.toNat]? = some true
  outOfBounds : ∀ ppn, (release ppn f).result = .error .outOfBounds ↔ total ≤ ppn.toNat
  doubleFree : ∀ ppn, (release ppn f).result = .error .doubleFree ↔
    ppn.toNat < total ∧ f.allocated[ppn.toNat]? = some false
  refused : ∀ ppn e, (release ppn f).result = .error e → (release ppn f).state = f
  no_underflow : ∀ ppn, (release ppn f).result = .ok () → 0 < f.used

theorem Tracked.takes_longest (h : Tracked total now since f) (hwords : f.InWord)
    (htake : f.acquire.1 = some ppn) :
    f.isFree ppn = true ∧ ∀ q, f.isFree q = true → q ≠ ppn → FreeLonger since ppn q := by
  cases hfree : f.free with
  | nil =>
    rw [acquire_nil hfree] at htake
    cases htake
  | cons first rest =>
    rw [acquire_cons hfree] at htake
    obtain rfl := Option.some.inj htake
    have hordered := h.ordered
    rw [hfree, List.pairwise_cons] at hordered
    constructor
    · exact h.wellFormed.isFree_of_mem (hfree ▸ List.mem_cons_self)
    · intro q hq hne
      rw [← h.wellFormed.mem_free_iff hwords, hfree, List.mem_cons] at hq
      exact hordered.1 q (hq.resolve_left hne)

theorem Tracked.accounted (h : Tracked total now since f) (hwords : total < 0x100000000) :
    Accounted total since f := by
  obtain rfl := h.total_eq
  have hbelow : ∀ (ppn : Ppn) (allocated : Bool), f.allocated[ppn.toNat]? = some allocated ↔
      ppn.toNat < f.total ∧ f.allocated[ppn.toNat]? = some allocated :=
    fun ppn allocated => ⟨fun hmark => ⟨lt_total_of_mark hmark, hmark⟩, And.right⟩
  have hcount := h.counted
  refine ⟨h.wellFormed.nodup, ?_, h.mem_iff, rfl, by omega, by omega, ?_, ?_,
    fun ppn => (release_ends ppn f).ok_iff.trans (hbelow ppn true),
    fun ppn => (release_ends ppn f).outOfBounds_iff,
    fun ppn => (release_ends ppn f).doubleFree_iff.trans (hbelow ppn false),
    fun ppn e => (release_ends ppn f).eq_of_error, ?_⟩
  · intro ppn
    rw [← hbelow, h.wellFormed.mem_free_iff hwords, isFree_iff]
  · rw [← h.wellFormed.free_eq_nil_iff hwords]
    cases hfree : f.free with
    | nil => simp [acquire_nil hfree]
    | cons ppn rest => simp [acquire_cons hfree]
  · intro ppn htake
    obtain ⟨hfree, hlongest⟩ := h.takes_longest hwords htake
    exact ⟨lt_total_of_isFree hfree, isFree_iff.mp hfree,
      fun q _ hq => hlongest q (isFree_iff.mpr hq)⟩
  · intro ppn hok
    have hmark := (release_ends ppn f).ok_iff.mp hok
    have hroom := h.wellFormed.freeCount_lt (lt_total_of_mark hmark) (by simp [isFree, hmark])
    omega

/-- Whatever was called before, no frame is lost and none is there twice. -/
theorem accounted_after (h : total < 0x100000000) (calls : List Call) :
    Accounted total (freeSince total calls) (after total calls) :=
  (tracked_after h calls).accounted h

/-- All three frames are taken, and the lower two come back in the other order. A frame that is free
and one that does not exist are refused in between. -/
def swapped : List Call :=
  [.release 0, .release 9, .release 1, .release 1, .acquire, .acquire, .acquire]

theorem accounted_swapped :
    3 < 0x100000000 ∧ (after 3 swapped).acquire.1 = some 1 ∧
      FreeLonger (freeSince 3 swapped) 1 0 ∧
      (release 0 (after 3 swapped)).result = .error .doubleFree ∧
      (release 0 (after 3 swapped)).state = after 3 swapped ∧
      (release 2 (after 3 swapped)).result = .ok () ∧ 0 < (after 3 swapped).used := by
  have h := accounted_after (show 3 < 0x100000000 by decide) swapped
  have htake : (after 3 swapped).acquire.1 = some 1 := by decide
  have hfree : (after 3 swapped).allocated[(0 : Ppn).toNat]? = some false := by decide
  have htwice := (h.doubleFree 0).mpr ⟨by decide, hfree⟩
  have hreturn := (h.returns 2).mpr ⟨by decide, by decide⟩
  exact ⟨by decide, htake, (h.takes_longest 1 htake).2.2 0 (by decide) hfree (by decide), htwice,
    h.refused 0 _ htwice, hreturn, h.no_underflow 2 hreturn⟩

end VirtualMemory.Frames
