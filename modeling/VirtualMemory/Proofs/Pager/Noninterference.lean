import VirtualMemory.Proofs.Pager.Alike
import VirtualMemory.Proofs.Pager.Closing
import VirtualMemory.Proofs.Pager.Coherence

/-!
# One process learns nothing about another

Two runs of a pager are given the same events, but for the bytes that one process writes and that
its image holds. Step after step they decide the same, so that the pagers stay alike; and whoever
else reads finds the same bytes in both, although frames and slots are handed on as they are: what a
page of another process holds is what was written to it, and that is the same in both runs.
-/

namespace VirtualMemory.Pager

open Op

variable {p p' : Pager} {secret : Pid} {event event' : Event} {events events' : List Event}

/-! ## The two runs -/

/-- Events that differ at most in the bytes that process `secret` puts into its space, and in those
that a failing write leaves in the swap file. -/
inductive Event.SameBut (secret : Pid) : Event → Event → Prop
  | same (event : Event) : SameBut secret event event
  | register {numPages : Nat} {image image' : Option ImageIndex}
      (himage : Option.Rel ImageIndex.Alike image image') :
      SameBut secret (.register secret numPages image) (.register secret numPages image')
  | write {vaddr : VirtAddr} {data data' : Bytes} (hlength : data.length = data'.length) :
      SameBut secret (.write secret vaddr data) (.write secret vaddr data')
  | swapFaults {faults faults' : FileFaults} (hfaults : faults.Alike faults') :
      SameBut secret (.swapFaults faults) (.swapFaults faults')

/-- A transfer that the event makes stays inside the page of its address. -/
def Event.Contained (pageSize : Nat) : Event → Prop
  | .read _ vaddr length => vaddr.offset pageSize + length ≤ pageSize
  | .write _ vaddr data => vaddr.offset pageSize + data.length ≤ pageSize
  | _ => True

theorem Event.Contained.inPage {pageSize : Nat} (h : event.Contained pageSize) :
    event.InPage pageSize := by
  cases event with
  | write => exact h
  | _ => trivial

theorem Event.SameBut.contained (h : event.SameBut secret event') {pageSize : Nat}
    (hin : event.Contained pageSize) : event'.Contained pageSize := by
  cases h with
  | same => exact hin
  | register => trivial
  | @write vaddr data data' hlength =>
    show vaddr.offset pageSize + data'.length ≤ pageSize
    rw [← hlength]
    exact hin
  | swapFaults => trivial

theorem contained_of_sameBut {pageSize : Nat}
    (hsame : List.Forall₂ (Event.SameBut secret) events events')
    (hin : ∀ event ∈ events, event.Contained pageSize) :
    ∀ event ∈ events', event.Contained pageSize := by
  induction hsame with
  | nil => exact hin
  | cons he _ ih =>
    obtain ⟨hevent, hin⟩ := List.forall_mem_cons.mp hin
    exact List.forall_mem_cons.mpr ⟨he.contained hevent, ih hin⟩

/-- Answers to an event that differ at most in the values of the bytes that were read. -/
inductive Answer.Alike : Event → Answer → Answer → Prop
  | same (event : Event) (answer : Answer) : Alike event answer answer
  | read {pid : Pid} {vaddr : VirtAddr} {length : Nat} {data data' : Bytes}
      (hlength : data.length = data'.length) :
      Alike (.read pid vaddr length) (.read (.ok data)) (.read (.ok data'))

def Step.notices (s : Step) : List Notice := (perform s.event s.before).notices

/-- Steps that nobody but `secret` can tell apart: the pagers that they lead to are alike, and what
they answer and report is the same, but for what `secret` reads. -/
structure Step.Indistinct (secret : Pid) (s s' : Step) : Prop where
  event : s.event.SameBut secret s'.event
  after : s.after.Alike s'.after
  notices : s.notices = s'.notices
  answer : Answer.Alike s.event s.answer s'.answer
  others : (∀ vaddr length, s.event ≠ .read secret vaddr length) → s.answer = s'.answer

/-! ## What is decided -/

theorem agree_answer {ε α : Type} {x y : Op Pager ε α} (h : Agree Alike (· = ·) x y)
    (f : Except ε α → Answer) :
    Agree Alike (Answer.Alike event) (do return f (← Op.attempt x) : Op Pager Empty Answer)
      (do return f (← Op.attempt y)) := by
  refine .bind (.attempt h) fun r r' hr => .pure ?_
  rw [corresponds_eq_iff.mp hr]
  exact .same _ _

theorem agree_done {x y : Op Pager Empty PUnit} (h : Agree Alike (· = ·) x y) :
    Agree Alike (Answer.Alike event) (do x; return .done : Op Pager Empty Answer)
      (do y; return .done) :=
  .bind h fun _ _ _ => .pure (.same _ _)

/-- An event is answered alike. -/
theorem blind_perform (event : Event) : Blind (Answer.Alike event) (perform event) := by
  cases event with
  | register pid numPages image =>
    have himage : Option.Rel ImageIndex.Alike image image := by
      cases image with
      | none => exact .none
      | some index => exact .some (ImageIndex.Alike.refl index)
    exact agree_answer (agree_registerSpace pid numPages himage) _
  | miss pid vaddr => exact agree_answer (blind_handleMiss pid vaddr) _
  | translate pid vaddr access => exact agree_answer (blind_translate pid vaddr access) _
  | read pid vaddr length =>
    refine Agree.bind (.attempt (blind_read pid vaddr length)) fun r r' hr => .pure ?_
    cases hr with
    | ok hlength => exact .read hlength
    | error cause => exact .same _ _
  | write pid vaddr data => exact agree_answer (agree_writeBytes pid vaddr rfl) _
  | evict key => exact agree_answer (blind_evictPage key) _
  | save pid => exact agree_done (blind_saveContext pid)
  | restore pid => exact agree_done (blind_restoreContext pid)
  | teardown pid => exact agree_done (blind_teardown pid)
  | swapFaults faults => exact agree_done (agree_swapFaults (.refl faults))
  | imageFaults pid faults => exact agree_done (blind_imageFaults pid faults)
  | draw draws => exact agree_done (blind_draws draws)

/-- Events of the two runs are answered alike. -/
theorem Event.SameBut.agree (h : event.SameBut secret event') :
    Agree Alike (Answer.Alike event) (perform event) (perform event') := by
  cases h with
  | same => exact blind_perform event
  | register himage => exact agree_answer (agree_registerSpace secret _ himage) _
  | write hlength => exact agree_answer (agree_writeBytes secret _ hlength) _
  | swapFaults hfaults => exact agree_done (agree_swapFaults hfaults)

theorem Alike.stepOf (h : p.Alike p') (he : event.SameBut secret event') :
    Answer.Alike event (p.stepOf event).answer (p'.stepOf event').answer ∧
      (p.stepOf event).notices = (p'.stepOf event').notices ∧
      (p.stepOf event).after.Alike (p'.stepOf event').after := by
  obtain ⟨hr, hn, hs⟩ := he.agree p p' h
  rw [result_eq_value, result_eq_value] at hr
  cases hr with
  | ok hanswer => exact ⟨hanswer, hn, hs⟩

/-- Along both runs the pagers stay alike, and the events are answered alike. -/
theorem Alike.after (h : p.Alike p') (hsame : List.Forall₂ (Event.SameBut secret) events events') :
    (p.after events).Alike (p'.after events') := by
  induction hsame with
  | nil => exact h
  | cons he _ ih => exact (ih.stepOf he).2.2

/-! ## What the others find -/

theorem replaced_register {key : PageKey} {pid : Pid} (hk : key.pid ≠ pid) (pageSize offset : Nat)
    (old : UInt8) (numPages : Nat) (image : Option ImageIndex) (answer : Answer) :
    replaced pageSize key offset old (.register pid numPages image) answer = old := by
  cases answer with
  | registered r =>
    cases r with
    | ok => exact if_neg hk
    | error => rfl
  | _ => rfl

theorem replaced_write {key : PageKey} {pid : Pid} (hk : key.pid ≠ pid) (pageSize offset : Nat)
    (old : UInt8) (vaddr : VirtAddr) (data : Bytes) (answer : Answer) :
    replaced pageSize key offset old (.write pid vaddr data) answer = old := by
  cases answer with
  | written r =>
    cases r with
    | ok => exact if_neg fun h => hk (congrArg PageKey.pid h.1)
    | error => rfl
  | _ => rfl

/-- An event of the two runs leaves a page of another process with the same bytes. -/
theorem replaced_agree (he : event.SameBut secret event') {answer answer' : Answer}
    (ha : Answer.Alike event answer answer') {key : PageKey} (hk : key.pid ≠ secret)
    (pageSize offset : Nat)
    (old : UInt8) :
    replaced pageSize key offset old event answer =
      replaced pageSize key offset old event' answer' := by
  cases he with
  | same =>
    cases ha with
    | same => rfl
    | read => rfl
  | register => rw [replaced_register hk, replaced_register hk]
  | write => rw [replaced_write hk, replaced_write hk]
  | swapFaults => rfl

theorem expected_agree (h : p.Alike p')
    (hsame : List.Forall₂ (Event.SameBut secret) events events') {key : PageKey}
    (hk : key.pid ≠ secret) (pageSize offset : Nat) :
    expected pageSize key offset (p.history events) =
      expected pageSize key offset (p'.history events') := by
  induction hsame with
  | nil => rfl
  | cons he hpast ih =>
    have hanswer := ((h.after hpast).stepOf he).1
    simp only [history, expected, ih]
    exact replaced_agree he hanswer hk pageSize offset _

/-- Processes other than `secret` have the same bytes in both pagers. -/
def AlikeFor (secret : Pid) (p p' : Pager) : Prop :=
  ∀ key : PageKey, key.pid ≠ secret → (p.extent key.pid).isSome = true →
    (p'.extent key.pid).isSome = true → ∀ o < p.pageSize, p.byte key o = p'.byte key o

/-- What the other processes wrote is all that their pages hold, in both runs. -/
theorem alikeFor_after {c : Config} (hc : Created c p)
    (hsame : List.Forall₂ (Event.SameBut secret) events events')
    (hin : ∀ event ∈ events, event.Contained p.pageSize) :
    (p.after events).AlikeFor secret (p.after events') := by
  obtain ⟨h, -⟩ := hc.wellFormed
  have hin' := contained_of_sameBut hsame hin
  have hcoh := Coherent.after h (.created hc) events fun event he => (hin event he).inPage
  have hcoh' := Coherent.after h (.created hc) events' fun event he => (hin' event he).inPage
  intro key hk hspace hspace' o ho
  have hsize := (lasting_after h events).pageSize
  have hsize' := (lasting_after h events').pageSize
  rw [hcoh.bytes key hspace o ho, hcoh'.bytes key hspace' o (by rw [hsize', ← hsize]; exact ho),
    hsize, hsize']
  exact expected_agree (.refl p) hsame hk _ o

/-- A read by another process delivers the same. -/
theorem read_agree (h : p.Alike p') (hp : p.WellFormed none) (hp' : p'.WellFormed none)
    (hbytes : p.AlikeFor secret p') {pid : Pid} (hpid : pid ≠ secret) (vaddr : VirtAddr)
    {length : Nat} (hin : vaddr.offset p.pageSize + length ≤ p.pageSize) :
    (read pid vaddr length p).result = (read pid vaddr length p').result := by
  obtain ⟨hr, -, -⟩ := blind_read pid vaddr length p p' h
  obtain ⟨-, hread⟩ := read_ends hp pid vaddr length
  obtain ⟨-, hread'⟩ := read_ends hp' pid vaddr length
  generalize (read pid vaddr length p).result = r at hr hread ⊢
  generalize (read pid vaddr length p').result = r' at hr hread' ⊢
  cases hr with
  | error cause => rfl
  | @ok data data' =>
    obtain ⟨ha, -, hdata⟩ := hread
    obtain ⟨ha', -, hdata'⟩ := hread'
    obtain ⟨ppn, hf⟩ := Option.isSome_iff_exists.mp ha.resident
    obtain ⟨ppn', hf'⟩ := Option.isSome_iff_exists.mp ha'.resident
    have hspace := hp.space_of_frame? hf
    have hspace' := hp'.space_of_frame? hf'
    rw [pageOf, ← h.pageSize] at hdata' hspace'
    obtain ⟨hlength, hget⟩ := hdata hin
    obtain ⟨hlength', hget'⟩ := hdata' hin
    refine congrArg _ ?_
    rw [Bytes.eq_map_range hlength hget, Bytes.eq_map_range hlength' hget']
    refine List.map_congr_left fun i hi => ?_
    exact hbytes _ hpid hspace hspace' _ (by have := List.mem_range.mp hi; omega)

/-- Only a read can be answered differently. -/
theorem Answer.Alike.eq_of_not_read {answer answer' : Answer}
    (h : Answer.Alike event answer answer')
    (hread : ∀ pid vaddr length, event ≠ .read pid vaddr length) : answer = answer' := by
  cases h with
  | same => rfl
  | read => exact absurd rfl (hread _ _ _)

/-- Nobody but `secret` can tell the steps apart that an event makes from pagers with the same bytes
for everybody else. -/
theorem indistinct_stepOf (h : p.Alike p') (hp : p.WellFormed none) (hp' : p'.WellFormed none)
    (hbytes : p.AlikeFor secret p') (he : event.SameBut secret event')
    (hin : event.Contained p.pageSize) :
    (p.stepOf event).Indistinct secret (p'.stepOf event') := by
  obtain ⟨hanswer, hnotices, hafter⟩ := h.stepOf he
  refine ⟨he, hafter, hnotices, hanswer, fun hothers => ?_⟩
  by_cases hread : ∃ pid vaddr length, event = .read pid vaddr length
  · obtain ⟨pid, vaddr, length, rfl⟩ := hread
    have hpid : pid ≠ secret := by
      rintro rfl
      exact hothers vaddr length rfl
    cases he
    exact congrArg Answer.read (read_agree h hp hp' hbytes hpid vaddr hin)
  · refine hanswer.eq_of_not_read fun pid vaddr length heq => ?_
    exact hread ⟨pid, vaddr, length, heq⟩

/-- Whatever process `secret` writes and whatever its image holds, nobody else notices: step after
step the two runs leave pagers that differ in bytes only, report the same, and answer the same to
everybody but `secret`, to whom they answer with other bytes at most. -/
theorem noninterference {c : Config} (hc : Created c p) (secret : Pid)
    (hsame : List.Forall₂ (Event.SameBut secret) events events')
    (hin : ∀ event ∈ events, event.Contained p.pageSize) :
    List.Forall₂ (Step.Indistinct secret) (p.history events) (p.history events') := by
  obtain ⟨h, -⟩ := hc.wellFormed
  induction hsame with
  | nil => exact .nil
  | @cons event event' past past' he hpast ih =>
    obtain ⟨hevent, hin⟩ := List.forall_mem_cons.mp hin
    refine .cons ?_ (ih hin)
    have halike := (Alike.refl p).after hpast
    refine indistinct_stepOf halike (h.after past) (h.after past') ?_ he ?_
    · exact alikeFor_after hc hpast hin
    · rw [(lasting_after h past).pageSize]
      exact hevent

/-- Process 1 writes a byte and loses the only frame to process 2, which looks for the byte there;
then the page comes back. -/
def handover (byte : UInt8) : List Event :=
  [.read 1 ⟨1⟩ 1, .miss 1 ⟨0⟩, .draw (.ofWords [0]), .read 2 ⟨1⟩ 1, .miss 2 ⟨0⟩, .register 2 1 none,
    .draw (.ofWords [0]), .write 1 ⟨1⟩ [byte], .miss 1 ⟨0⟩, .register 1 2 none]

theorem sameBut_handover (byte byte' : UInt8) :
    List.Forall₂ (Event.SameBut 1) (handover byte) (handover byte') :=
  .cons (.same _) <| .cons (.same _) <| .cons (.same _) <| .cons (.same _) <| .cons (.same _) <|
    .cons (.same _) <| .cons (.same _) <| .cons (.write rfl) <| .cons (.same _) <|
    .cons (.same _) .nil

theorem contained_handover (byte : UInt8) :
    ∀ event ∈ handover byte, event.Contained small.pageSize := by
  simp only [handover, List.forall_mem_cons, Event.Contained, List.length_singleton,
    List.not_mem_nil, false_imp_iff, implies_true]
  decide

theorem noninterference_handover :
    (read 1 ⟨1⟩ 1 (small.after (handover 7).tail)).result = .ok [7] ∧
      (read 1 ⟨1⟩ 1 (small.after (handover 8).tail)).result = .ok [8] ∧
      (read 2 ⟨1⟩ 1 (small.after ((handover 7).drop 4))).result = .ok [0] ∧
      List.Forall₂ (Step.Indistinct 1) (small.history (handover 7))
        (small.history (handover 8)) := by
  have hseven : (read 1 ⟨1⟩ 1 (small.after (handover 7).tail)).result = .ok [7] := by
    decide +kernel
  have height : (read 1 ⟨1⟩ 1 (small.after (handover 8).tail)).result = .ok [8] := by
    decide +kernel
  have hzero : (read 2 ⟨1⟩ 1 (small.after ((handover 7).drop 4))).result = .ok [0] := by
    decide +kernel
  refine ⟨hseven, height, hzero, ?_⟩
  exact noninterference created_small 1 (sameBut_handover 7 8) (contained_handover 7)

end VirtualMemory.Pager
