import SigmaCatalog.Indexing.Run
import SigmaCatalog.Store.Memory.Handler

/-!
# Requests one after another

An indexer serves requests over a store in memory, each to its end before the next begins.
-/

namespace SigmaCatalog.Indexer

/-- A request to index or to remove a rule. -/
inductive Order where
  | index (request : IndexRequest)
  | remove (request : RemovalRequest)
  deriving Repr

def orderProgram (indexer : Indexer) : Order → Program (Except IndexError Acknowledgement)
  | .index request => indexer.indexRule request
  | .remove request => indexer.removeRule request

/-- Serves a request at a time of day: the outcome, and the store after it. -/
def serve (indexer : Indexer) (time : String) (order : Order) (memory : Memory) :
    Except IndexError Acknowledgement × Memory :=
  let (result, memory) := (indexer.orderProgram order).run (Memory.handler time) memory
  (outcomeOf result, memory)

/-- The store after requests, each at its time of day. -/
def serveAll (indexer : Indexer) (orders : List (String × Order)) (memory : Memory) : Memory :=
  orders.foldl (fun memory (time, order) => (indexer.serve time order memory).2) memory

end SigmaCatalog.Indexer
