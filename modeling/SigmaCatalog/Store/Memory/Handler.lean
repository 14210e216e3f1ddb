import SigmaCatalog.Program
import SigmaCatalog.Store.Memory

/-!
# Programs on a store in memory

A store in memory answers every call at once.  Nobody gives up waiting, every keeper of field
mappings outside the store succeeds, and the time of day is given.
-/

namespace SigmaCatalog.Memory

/-- Performs the actions of a program at a time of day. -/
def handler (time : String) : Program.Handler Memory
  | .store call, memory =>
    let (reply, memory) := memory.perform call
    (some reply, memory)
  | .storeWithin _ call, memory =>
    let (reply, memory) := memory.perform call
    (some (some reply : Option call.Reply), memory)
  | .handOver _, memory => (some (.ok () : Except MappingError Unit), memory)
  | .askAbandoned, memory => (some false, memory)
  | .notify _, memory => (some (), memory)
  | .askTime, memory => (some time, memory)
  | .breakDown, memory => (none, memory)

end SigmaCatalog.Memory
