/-!
# Causes of failure

Every operation that can fail names its cause by a constructor; the wording of a cause is in
`MemoryError.message` alone. Each cause has a name too, by which reports refer to it, and
`ofName?` finds the cause again.
-/

namespace VirtualMemory

inductive MemoryError
  /-- No free frame, and no resident page to evict. -/
  | outOfMemory
  | alreadyMapped
  | notMapped
  /-- A frame was given back twice. -/
  | doubleFree
  | invalidParameter
  /-- An address outside the process's space. -/
  | invalidAddress
  | readOnly
  | outOfBounds
  | invalidImage
  | swapFailure
  | swapClosed
  /-- An audit found that two structures disagree. -/
  | invariantViolation
  deriving DecidableEq, Repr

def MemoryError.message : MemoryError → String
  | .outOfMemory => "OOM: sem páginas físicas livres e nenhuma vítima residente"
  | .alreadyMapped => "Entrada já presente na tabela de tradução"
  | .notMapped => "Entrada ausente na tabela de tradução"
  | .doubleFree => "Double free detectado"
  | .invalidParameter => "Parâmetro inválido"
  | .invalidAddress => "Endereço inválido"
  | .readOnly => "Escrita em página somente-leitura"
  | .outOfBounds => "Índice fora dos limites"
  | .invalidImage => "Imagem de programa inválida"
  | .swapFailure => "Falha de I/O no swap"
  | .swapClosed => "Swap já fechado"
  | .invariantViolation => "Invariante do pager violado"

def MemoryError.name : MemoryError → String
  | .outOfMemory => "OutOfMemory"
  | .alreadyMapped => "AlreadyMapped"
  | .notMapped => "NotMapped"
  | .doubleFree => "DoubleFree"
  | .invalidParameter => "InvalidParameter"
  | .invalidAddress => "InvalidAddress"
  | .readOnly => "ReadOnly"
  | .outOfBounds => "OutOfBounds"
  | .invalidImage => "InvalidImage"
  | .swapFailure => "SwapIo"
  | .swapClosed => "SwapClosed"
  | .invariantViolation => "InvariantViolation"

def MemoryError.all : List MemoryError :=
  [ .outOfMemory, .alreadyMapped, .notMapped, .doubleFree, .invalidParameter, .invalidAddress,
    .readOnly, .outOfBounds, .invalidImage, .swapFailure, .swapClosed, .invariantViolation ]

def MemoryError.ofName? (name : String) : Option MemoryError := all.find? (·.name == name)

theorem MemoryError.ofName?_name (e : MemoryError) : ofName? e.name = some e := by
  cases e <;> rfl

inductive Access
  | read
  | write
  deriving DecidableEq, Repr

def Access.name : Access → String
  | .read => "Read"
  | .write => "Write"

inductive Exception
  /-- The page is not in the address cache. -/
  | tlbMiss
  /-- A write to a read-only page. -/
  | readOnly
  /-- An address outside the space. -/
  | addressError
  deriving DecidableEq, Repr

def Exception.name : Exception → String
  | .tlbMiss => "TlbMiss"
  | .readOnly => "ReadOnly"
  | .addressError => "AddressError"

def Exception.ofName? (name : String) : Option Exception :=
  [.tlbMiss, .readOnly, .addressError].find? (·.name == name)

theorem Exception.ofName?_name (e : Exception) : ofName? e.name = some e := by cases e <;> rfl

/-- The outcome of handling an exception. -/
inductive FaultResult
  | success
  | outOfMemory
  | protectionViolation
  | invalidAddress
  | fatalError
  deriving DecidableEq, Repr

def FaultResult.name : FaultResult → String
  | .success => "Success"
  | .outOfMemory => "OutOfMemory"
  | .protectionViolation => "ProtectionViolation"
  | .invalidAddress => "InvalidAddress"
  | .fatalError => "FatalError"

def FaultResult.ofName? (name : String) : Option FaultResult :=
  [.success, .outOfMemory, .protectionViolation, .invalidAddress, .fatalError].find?
    (·.name == name)

theorem FaultResult.ofName?_name (f : FaultResult) : ofName? f.name = some f := by
  cases f <;> rfl

/-- The outcome of an exception that nothing resolves. -/
def FaultResult.ofException : Exception → FaultResult
  | .tlbMiss => .fatalError
  | .readOnly => .protectionViolation
  | .addressError => .invalidAddress

/-- The error that stands for an outcome other than success. -/
def FaultResult.toError? : FaultResult → Option MemoryError
  | .success => none
  | .outOfMemory => some .outOfMemory
  | .protectionViolation => some .readOnly
  | .invalidAddress => some .invalidAddress
  | .fatalError => some .swapFailure

inductive FileError
  | notFound
  | permissionDenied
  | ioFailure
  /-- The file was closed before. -/
  | closed
  deriving DecidableEq, Repr

def FileError.name : FileError → String
  | .notFound => "NotFound"
  | .permissionDenied => "PermissionDenied"
  | .ioFailure => "IoError"
  | .closed => "Closed"

def FileError.ofName? (name : String) : Option FileError :=
  [.notFound, .permissionDenied, .ioFailure, .closed].find? (·.name == name)

theorem FileError.ofName?_name (e : FileError) : ofName? e.name = some e := by cases e <;> rfl

inductive HostRefusal
  | notFound
  | permissionDenied
  | other
  deriving DecidableEq, Repr

def FileError.ofRefusal : HostRefusal → FileError
  | .notFound => .notFound
  | .permissionDenied => .permissionDenied
  | .other => .ioFailure

/-- What a failing swap file means to the memory manager. -/
def MemoryError.ofFile : FileError → MemoryError
  | .closed => .swapClosed
  | _ => .swapFailure

end VirtualMemory
