import VirtualMemory.Notice

/-!
# Operations

An operation takes the state of a machine and answers a result, the state after it and the notices
that it issued. A failing operation has a state too: what was done before the failure stays done.
An operation whose error type is `Empty` cannot fail, and runs inside any other.

`Part` names a component of a state, and `Op.on` runs an operation of the component on the whole.
-/

namespace VirtualMemory

structure Outcome (σ ε α : Type) where
  result : Except ε α
  state : σ
  notices : List Notice

/-- The program stopped on the way. -/
def Outcome.halted {σ ε α : Type} (y : Outcome σ ε α) : Bool := y.notices.any Notice.isHalt

/-- An operation on states `σ` that fails with `ε` or answers an `α`. -/
def Op (σ ε α : Type) : Type := σ → Outcome σ ε α

namespace Op

variable {σ τ ε ε' α β : Type}

protected def pure (a : α) : Op σ ε α := fun s => ⟨.ok a, s, []⟩

protected def bind (x : Op σ ε α) (f : α → Op σ ε β) : Op σ ε β := fun s =>
  match x s with
  | ⟨.ok a, s', notices⟩ =>
    let y := f a s'
    ⟨y.result, y.state, notices ++ y.notices⟩
  | ⟨.error e, s', notices⟩ => ⟨.error e, s', notices⟩

instance : Monad (Op σ ε) where
  pure := Op.pure
  bind := Op.bind

theorem pure_apply (a : α) (s : σ) : (pure a : Op σ ε α) s = ⟨.ok a, s, []⟩ := rfl

theorem bind_apply (x : Op σ ε α) (f : α → Op σ ε β) (s : σ) :
    (x >>= f) s =
      match x s with
      | ⟨.ok a, s', notices⟩ => ⟨(f a s').result, (f a s').state, notices ++ (f a s').notices⟩
      | ⟨.error e, s', notices⟩ => ⟨.error e, s', notices⟩ := rfl

instance : LawfulMonad (Op σ ε) := LawfulMonad.mk' _
  (fun x => by
    funext s
    show Op.bind x (fun a => Op.pure (id a)) s = x s
    simp only [Op.bind, Op.pure]
    rcases x s with ⟨_ | _, _, _⟩ <;> simp)
  (fun a f => by
    funext s
    show Op.bind (Op.pure a) f s = f a s
    simp [Op.bind, Op.pure])
  (fun x f g => by
    funext s
    show Op.bind (Op.bind x f) g s = Op.bind x (fun a => Op.bind (f a) g) s
    simp only [Op.bind]
    rcases x s with ⟨_ | a, s', _⟩
    · rfl
    · simp only
      rcases f a s' with ⟨_ | _, _, _⟩ <;> simp)

protected def throw (e : ε) : Op σ ε α := fun s => ⟨.error e, s, []⟩

/-- On failure, goes on with `handle` from the state at the failure. -/
protected def tryCatch (x : Op σ ε α) (handle : ε → Op σ ε α) : Op σ ε α := fun s =>
  match x s with
  | ⟨.ok a, s', notices⟩ => ⟨.ok a, s', notices⟩
  | ⟨.error e, s', notices⟩ =>
    let y := handle e s'
    ⟨y.result, y.state, notices ++ y.notices⟩

instance : MonadExceptOf ε (Op σ ε) where
  throw := Op.throw
  tryCatch := Op.tryCatch

instance : MonadStateOf σ (Op σ ε) where
  get := fun s => ⟨.ok s, s, []⟩
  set := fun s _ => ⟨.ok (), s, []⟩
  modifyGet := fun f s => ⟨.ok (f s).1, (f s).2, []⟩

theorem throw_apply (e : ε) (s : σ) : (throw e : Op σ ε α) s = ⟨.error e, s, []⟩ := rfl

theorem get_apply (s : σ) : (get : Op σ ε σ) s = ⟨.ok s, s, []⟩ := rfl

theorem modify_apply (f : σ → σ) (s : σ) : (modify f : Op σ ε Unit) s = ⟨.ok (), f s, []⟩ := rfl

def notify (n : Notice) : Op σ ε Unit := fun s => ⟨.ok (), s, [n]⟩

/-- A page number is a quotient by the low 32 bits of the page size. If they are zero, the program
stops. -/
def checkDivisor (pageSize : Nat) : Op σ ε Unit := fun s =>
  ⟨.ok (), s, if pageSize.toUInt32 = 0 then [.halted .divisionByZero] else []⟩

/-- The size of a buffer is a signed 64-bit number. For a larger one the program stops. -/
def checkBuffer (size : Nat) : Op σ ε Unit := fun s =>
  ⟨.ok (), s, if size < 0x8000000000000000 then [] else [.halted .bufferTooLarge]⟩

/-- Runs an operation and answers how it ended; the attempt itself cannot fail. -/
def attempt (x : Op σ ε α) : Op σ ε' (Except ε α) := fun s =>
  let y := x s
  ⟨.ok y.result, y.state, y.notices⟩

/-- An operation that cannot fail, used where failure is possible. -/
def total (x : Op σ Empty α) : Op σ ε α := fun s =>
  match x s with
  | ⟨.ok a, s', notices⟩ => ⟨.ok a, s', notices⟩
  | ⟨.error e, _, _⟩ => nomatch e

instance : MonadLift (Op σ Empty) (Op σ ε) := ⟨total⟩

def value (y : Outcome σ Empty α) : α :=
  match y.result with
  | .ok a => a
  | .error e => nomatch e

def ofExcept (r : Except ε α) : Op σ ε α := fun s => ⟨r, s, []⟩

/-- Answers the next value and state, or fails and keeps the state. -/
def step (f : σ → Except ε (α × σ)) : Op σ ε α := fun s =>
  match f s with
  | .ok (a, s') => ⟨.ok a, s', []⟩
  | .error e => ⟨.error e, s, []⟩

def mapError (f : ε → ε') (x : Op σ ε α) : Op σ ε' α := fun s =>
  let y := x s
  ⟨y.result.mapError f, y.state, y.notices⟩

/-- Runs an operation on a value that is no part of the state. -/
def apart (t : τ) (x : Op τ ε α) : Op σ ε (α × τ) := fun s =>
  match x t with
  | ⟨.ok a, t', notices⟩ => ⟨.ok (a, t'), s, notices⟩
  | ⟨.error e, _, notices⟩ => ⟨.error e, s, notices⟩

end Op

structure Part (σ τ : Type) where
  get : σ → τ
  put : τ → σ → σ

namespace Op

variable {σ τ ε α : Type}

/-- Runs an operation of a component on the whole state. -/
def on (part : Part σ τ) (x : Op τ ε α) : Op σ ε α := fun s =>
  let y := x (part.get s)
  ⟨y.result, part.put y.state s, y.notices⟩

theorem on_apply (part : Part σ τ) (x : Op τ ε α) (s : σ) :
    on part x s =
      ⟨(x (part.get s)).result, part.put (x (part.get s)).state s, (x (part.get s)).notices⟩ := rfl

end Op

end VirtualMemory
