import Mathlib.Data.Nat.Digits.Defs
import VirtualMemory.Proofs.FlatCopies
import VirtualMemory.Proofs.Utf8RoundTrip

/-!
# The arguments of a process

The arguments are a table of pointers and the texts right after it, each with a NUL. They are
written one argument after the other, so that the writes go back and forth between the table and the
texts; but they never meet, and in the end both stand there as if each had been written at once. A
process that follows a pointer reads its argument.
-/

namespace VirtualMemory

/-! ## Table and texts -/

/-- Pointers to texts that follow each other from `text` on. -/
def pointerTable (text : Nat) : List Bytes → Bytes
  | [] => []
  | arg :: rest => littleEndian text.toUInt32 ++ pointerTable (text + arg.length + 1) rest

/-- The texts, each with its NUL. -/
def terminated (args : List Bytes) : Bytes := args.flatMap (· ++ [0])

/-- The arguments as they are at address `argv`. -/
def argumentBlock (argv : Nat) (args : List Bytes) : Bytes :=
  pointerTable (argv + 4 * args.length) args ++ terminated args

theorem terminated_cons (arg : Bytes) (rest : List Bytes) :
    terminated (arg :: rest) = (arg ++ [0]) ++ terminated rest := rfl

theorem length_terminated_cons (arg : Bytes) (rest : List Bytes) :
    (terminated (arg :: rest)).length = arg.length + 1 + (terminated rest).length := by
  rw [terminated_cons, List.length_append, List.length_append, List.length_singleton]

theorem length_littleEndian (w : UInt32) : (littleEndian w).length = 4 := rfl

theorem length_pointerTable (text : Nat) (args : List Bytes) :
    (pointerTable text args).length = 4 * args.length := by
  induction args generalizing text with
  | nil => rfl
  | cons arg rest ih =>
    rw [pointerTable, List.length_append, ih, length_littleEndian, List.length_cons]
    omega

theorem length_argumentBlock (argv : Nat) (args : List Bytes) :
    (argumentBlock argv args).length = 4 * args.length + (terminated args).length := by
  rw [argumentBlock, List.length_append, length_pointerTable]

theorem argumentsSize_eq (args : List Bytes) :
    argumentsSize args = (args.map fun arg => 4 + arg.length + 1).sum := by
  have hfold : ∀ size, args.foldl (fun size arg => size + (argumentPointerSize + arg.length + 1))
      size = size + (args.map fun arg => 4 + arg.length + 1).sum := by
    induction args with
    | nil => exact fun size => rfl
    | cons arg rest ih =>
      intro size
      rw [List.foldl_cons, ih, List.map_cons, List.sum_cons, argumentPointerSize]
      omega
  exact (hfold 0).trans (Nat.zero_add _)

theorem argumentsSize_texts (args : List String) : argumentsSize (args.map textBytes) =
    (args.map fun arg => 4 + arg.utf8ByteSize + 1).sum := by
  simp only [argumentsSize_eq, List.map_map, Function.comp_def, length_textBytes]

/-- The block takes as many bytes as were counted. -/
theorem argumentsSize_block (argv : Nat) (args : List Bytes) :
    argumentsSize args = (argumentBlock argv args).length := by
  rw [argumentsSize_eq, length_argumentBlock]
  induction args with
  | nil => rfl
  | cons arg rest ih =>
    rw [length_terminated_cons, List.length_cons, List.map_cons, List.sum_cons]
    omega

/-! ## Following a pointer -/

namespace FlatSpace

variable {f : FlatSpace} {args : List Bytes} {arg : Bytes} {pointer text i : Nat}

/-- The word at an address, low byte first. -/
def word (f : FlatSpace) (a : Nat) : Nat := Nat.ofDigits 256 ((f.bytes a 4).map UInt8.toNat)

theorem word_littleEndian {a : Nat} {w : UInt32} (h : f.bytes a 4 = littleEndian w) :
    f.word a = w.toNat := by
  have hlt := UInt32.toNat_lt w
  simp [word, h, littleEndian, Nat.ofDigits, Nat.shiftRight_eq_div_pow]
  omega

/-- The pointer to an argument is the address where it stands. -/
theorem argument_found (hi : args[i]? = some arg)
    (hend : text + (terminated args).length ≤ 0x100000000)
    (htable : f.bytes pointer (4 * args.length) = pointerTable text args)
    (htexts : f.bytes text (terminated args).length = terminated args) :
    f.word (pointer + 4 * i) + arg.length + 1 ≤ text + (terminated args).length ∧
      f.bytes (f.word (pointer + 4 * i)) (arg.length + 1) = arg ++ [0] := by
  induction args generalizing pointer text i with
  | nil => cases hi
  | cons first rest ih =>
    rw [length_terminated_cons] at hend htexts ⊢
    have hsize : 4 * (first :: rest).length = 4 + 4 * rest.length := by
      rw [List.length_cons]
      omega
    rw [hsize, pointerTable] at htable
    rw [terminated_cons] at htexts
    obtain ⟨hword, htable⟩ := bytes_eq_append (length_littleEndian _) htable
    obtain ⟨hfirst, htexts⟩ := bytes_eq_append (by simp) htexts
    cases i with
    | zero =>
      obtain rfl := Option.some.inj hi
      have haddress : f.word (pointer + 4 * 0) = text :=
        (word_littleEndian hword).trans (toNat_word (by omega))
      rw [haddress]
      exact ⟨by omega, hfirst⟩
    | succ i =>
      have hnext : pointer + 4 * (i + 1) = pointer + 4 + 4 * i := by omega
      obtain ⟨hlt, hfound⟩ := ih hi (by omega) htable htexts
      rw [hnext]
      exact ⟨by omega, hfound⟩

end FlatSpace

/-! ## Writing -/

/-- Two runs that grow in turns, and do not meet, are as if each had been written at once. -/
theorem FlatSpace.overwritten_turns (f : FlatSpace) {a b : Nat} (first second more rest : Bytes)
    (hapart : a + first.length + more.length ≤ b) :
    (((f.overwritten a first).overwritten b second).overwritten (a + first.length)
        more).overwritten (b + second.length) rest =
      (f.overwritten a (first ++ more)).overwritten b (second ++ rest) := by
  rw [← overwritten_comm _ _ hapart, overwritten_append, overwritten_append]

namespace Hosted

variable {p : Process} {f : FlatSpace} (hg : Geometry f.numPages f.pageSize)
  (hspans : Spans p f.pageSize f.numPages) (halive : p.terminated = false)

include hg hspans halive

theorem writeAll_flat {a : Nat} {data : Bytes} (ha : a < 0x100000000)
    (hdata : ∀ i < data.length, f.Writable (a + i)) :
    (writeAll ⟨a.toUInt32⟩ data : Op (Hosted FlatSpace) MemoryError Unit).Ends ⟨p, f⟩ fun r t' =>
      r = .ok () ∧ t' = ⟨p, f.overwritten a data⟩ := by
  simp only [writeAll, Op.ends_bind, Op.ends_total]
  refine (copyIn_flat hg hspans halive ⟨a.toUInt32⟩ data).imp ?_
  rintro r t' ⟨n, ⟨fault, rfl⟩, hprefix, rfl⟩
  rw [toNat_word ha] at hprefix ⊢
  obtain rfl := hprefix.unique (.whole hdata)
  simp [Op.ends_pure]

/-- The table and the texts are written, wherever they are. -/
theorem writeArguments_flat {pointer text : Nat} {args : List Bytes}
    (hapart : pointer + 4 * args.length ≤ text)
    (hend : text + (terminated args).length < 0x100000000)
    (hwritable : ∀ a, pointer ≤ a → a < text + (terminated args).length → f.Writable a) :
    (writeArguments pointer.toUInt32 text.toUInt32 args :
      Op (Hosted FlatSpace) MemoryError Unit).Ends ⟨p, f⟩ fun r t' => r = .ok () ∧
        t' = ⟨p, (f.overwritten pointer (pointerTable text args)).overwritten text
          (terminated args)⟩ := by
  induction args generalizing f pointer text with
  | nil =>
    have hsame : (f.overwritten pointer (pointerTable text [])).overwritten text (terminated []) =
        f := by
      simp [pointerTable, terminated]
    rw [hsame]
    exact ⟨rfl, rfl⟩
  | cons arg rest ih =>
    rw [length_terminated_cons] at hend hwritable
    rw [List.length_cons] at hapart
    have hnul : text.toUInt32 + arg.length.toUInt32 = (text + arg.length).toUInt32 := by simp
    have htext : (text + arg.length).toUInt32 + 1 = (text + arg.length + 1).toUInt32 := by simp
    have hpointer : pointer.toUInt32 + argumentPointerSize.toUInt32 = (pointer + 4).toUInt32 := by
      simp [argumentPointerSize]
    rw [writeArguments, hnul, htext, hpointer]
    simp only [Op.ends_bind]
    have hlength := length_littleEndian text.toUInt32
    rw [pointerTable, terminated_cons]
    generalize littleEndian text.toUInt32 = entry at hlength ⊢
    refine (writeAll_flat hg hspans halive (by omega)
      fun i hi => hwritable (pointer + i) (by omega) (by omega)).imp ?_
    rintro r t ⟨rfl, rfl⟩
    refine (writeAll_flat (f := f.overwritten pointer entry) hg hspans halive (by omega)
      fun i hi => hwritable (text + i) (by omega) (by omega)).imp ?_
    rintro r t ⟨rfl, rfl⟩
    refine (writeAll_flat (f := (f.overwritten pointer entry).overwritten text arg) hg hspans halive
      (by omega) fun i hi => ?_).imp ?_
    · obtain rfl := Nat.lt_one_iff.mp hi
      exact hwritable _ (by omega) (by omega)
    rintro r t ⟨rfl, rfl⟩
    -- the text and its NUL follow each other, so they are one write
    have hwhole : ((f.overwritten pointer entry).overwritten text arg).overwritten
        (text + arg.length) [0] = (f.overwritten pointer entry).overwritten text (arg ++ [0]) :=
      FlatSpace.overwritten_append _ text arg [0]
    dsimp only
    rw [hwhole]
    refine (ih (f := (f.overwritten pointer entry).overwritten text (arg ++ [0])) hg hspans
      (by omega) (by omega) fun a ha ha' => hwritable a (by omega) (by omega)).imp ?_
    rintro r t ⟨rfl, rfl⟩
    have hturns := f.overwritten_turns entry (arg ++ [0])
      (pointerTable (text + arg.length + 1) rest) (terminated rest) (a := pointer) (b := text)
      (by rw [length_pointerTable]; omega)
    rw [hlength, List.length_append, List.length_singleton, ← Nat.add_assoc] at hturns
    rw [hturns]
    exact ⟨rfl, rfl⟩

/-! ## Reading -/

/-- A text without NUL is read whole, as soon as the read may be as long. It does not matter whether
the read would run over the end of the space. -/
theorem readText_flat (vaddr : VirtAddr) {text : Bytes} {maxLength : Nat}
    (hfound : f.bytes vaddr.value.toNat (text.length + 1) = text ++ [0])
    (hend : vaddr.value.toNat + text.length + 1 ≤ f.size) (hnul : 0 ∉ text)
    (hlength : text.length ≤ maxLength) (hbuffer : maxLength + 1 < 0x8000000000000000) :
    (readText vaddr maxLength : Op (Hosted FlatSpace) Empty (Option String)).Ends ⟨p, f⟩
      fun r t' => r = .ok (some (Utf8.decode text)) ∧ t' = ⟨p, f⟩ := by
  have hsize : (maxLength + 1).toUInt64.toNat = maxLength + 1 := by
    rw [Nat.toUInt64_eq, UInt64.toNat_ofNat', Nat.mod_eq_of_lt (by omega)]
  simp only [readText, Op.ends_bind, Op.ends_checkBuffer, hsize]
  refine (readMemory_flat hg hspans halive vaddr (maxLength + 1)).imp ?_
  rintro r t ⟨rfl, rfl⟩
  obtain ⟨more, hmore⟩ : ∃ more, min (maxLength + 1) (f.size - vaddr.value.toNat) =
      text.length + 1 + more := Nat.exists_eq_add_of_le (by omega)
  have htaken : ∀ rest : Bytes, ((text ++ [0]) ++ rest).takeWhile (· != 0) = text := by
    intro rest
    rw [List.append_assoc, List.takeWhile_append_of_pos]
    · simp
    · intro b hb
      exact bne_iff_ne.mpr fun h => hnul (h ▸ hb)
  dsimp only
  rw [hmore, ← FlatSpace.bytes_append, hfound, if_pos (by simp), htaken]
  exact ⟨rfl, rfl⟩

end Hosted

end VirtualMemory
