import Kuasar.Data.FirstMatch

/-!
# Shim.Data — what the shim remembers of a sandbox

The shim keeps a record of the containers of its sandbox and of their exec processes, each with
the transport of its standard streams, and the sandbox as it knows it. Of the latter only the
extension with the task list is read.
-/

namespace Kuasar.Shim

open FirstMatch

/-- A port of the guest behind a socket of the hypervisor. -/
structure VsockIO where
  sockPath : String
  port : ℤ
deriving DecidableEq, Repr

def hvsockPrefix : String := "hvsock://"

def VsockIO.convertToString (v : VsockIO) : String :=
  if v.sockPath.isEmpty then "" else hvsockPrefix ++ v.sockPath ++ ":" ++ toString v.port

/-- The pipes of containerd. -/
structure Stdio where
  stdin : String
  stdout : String
  stderr : String
  terminal : Bool
deriving DecidableEq, Repr

structure VSockTransport where
  stdin : Option VsockIO
  stdout : Option VsockIO
  stderr : Option VsockIO
  containerdPipe : Stdio
deriving DecidableEq, Repr

/-- What the guest is told of the standard streams. -/
class ContainerIoTransport (τ : Type) where
  containerIn : τ → String
  containerOut : τ → String
  containerErr : τ → String

/-- `convert_to_string` of a stream, or of the default that stands for none. -/
def streamName (io : Option VsockIO) : String := (io.getD ⟨"", 0⟩).convertToString

instance : ContainerIoTransport VSockTransport where
  containerIn io := streamName io.stdin
  containerOut io := streamName io.stdout
  containerErr io := streamName io.stderr

structure ProcessData (τ : Type) where
  id : String
  io : τ
deriving DecidableEq, Repr

structure ContainerData (τ : Type) where
  id : String
  io : τ
  processes : List (ProcessData τ) := []
deriving DecidableEq, Repr

structure ProcessResource where
  execId : String
  spec : String
  stdin : String
  stdout : String
  stderr : String
deriving DecidableEq, Repr

structure RootfsMount where
  type : String
  source : String
  options : List String
deriving DecidableEq, Repr

structure TaskResource where
  taskId : String
  spec : String
  rootfs : List RootfsMount
  stdin : String
  stdout : String
  stderr : String
  processes : List ProcessResource := []
deriving DecidableEq, Repr

/-- The record; `tasks` is the extension of that name. -/
structure SandboxData (τ : Type) where
  tasks : Option (List TaskResource) := none
  containers : List (ContainerData τ) := []
deriving DecidableEq, Repr

section Operations

variable {τ : Type}

def ContainerData.addProcessData (p : ProcessData τ) (c : ContainerData τ) : ContainerData τ :=
  { c with processes := c.processes ++ [p] }

def ContainerData.getProcessData (c : ContainerData τ) (execId : String) :
    Option (ProcessData τ) :=
  c.processes.find? (·.id = execId)

def ContainerData.deleteProcessData (execId : String) (c : ContainerData τ) : ContainerData τ :=
  { c with processes := c.processes.filter (·.id ≠ execId) }

namespace SandboxData

def addContainerData (d : SandboxData τ) (c : ContainerData τ) : SandboxData τ :=
  { d with containers := d.containers ++ [c] }

def getContainerData (d : SandboxData τ) (id : String) : Option (ContainerData τ) :=
  d.containers.find? (·.id = id)

/-- `get_mut_container_data` and a change of what it returns. -/
def changeContainerData (d : SandboxData τ) (id : String)
    (f : ContainerData τ → ContainerData τ) : Option (SandboxData τ) :=
  (d.getContainerData id).map fun _ =>
    { d with containers := updateFirst (·.id = id) f d.containers }

def deleteContainerData (d : SandboxData τ) (id : String) : SandboxData τ :=
  { d with containers := d.containers.filter (·.id ≠ id) }

end SandboxData

end Operations

/-- `CreateTaskRequest`, with the spec that is in its bundle. -/
structure CreateTaskRequest where
  id : String
  spec : String
  rootfs : List RootfsMount
  stdin : String
  stdout : String
  stderr : String
  terminal : Bool
deriving DecidableEq, Repr

structure ExecProcessRequest where
  id : String
  execId : String
  spec : String
  stdin : String
  stdout : String
  stderr : String
  terminal : Bool
deriving DecidableEq, Repr

end Kuasar.Shim
