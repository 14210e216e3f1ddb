import SigmaCatalog.CompiledRule
import SigmaCatalog.FieldMapping
import SigmaCatalog.Indexing.Error
import SigmaCatalog.Notice

/-!
# Compiling in two passes

A rule is compiled twice.  The first pass discovers the fields that its queries consult; a resolver
proposes their new names; the second pass compiles strictly with these names.  A first pass that
fails although the rule is in order discovers no fields, and the second pass decides.
-/

namespace SigmaCatalog

/-- A compiler, and a resolver for the fields it discovers. -/
structure Toolchain where
  compiler : Compiler
  resolver : Resolver

/-- What a pass reports and what comes of it; nothing does when the compiler breaks down. -/
structure Pass (α : Type) where
  notices : List Notice
  outcome : Option (Except IndexError α)

namespace Pass

variable {α β : Type}

/-- A pass that goes on with the value of an earlier one. -/
def followedBy (pass : Pass α) (following : α → Pass β) : Pass β :=
  match pass.outcome with
  | none => ⟨pass.notices, none⟩
  | some (.error cause) => ⟨pass.notices, some (.error cause)⟩
  | some (.ok value) => ⟨pass.notices ++ (following value).notices, (following value).outcome⟩

end Pass

namespace Toolchain

/-- The fields that a rule consults. -/
def discover (tools : Toolchain) (request : IndexRequest) : Pass (List String) :=
  let notices := [.entered .discovering, .compiling ∅ false]
  match tools.compiler request.text ∅ false with
  | none => ⟨notices, none⟩
  | some (.ok artifact) => ⟨notices, some (.ok artifact.fields)⟩
  | some (.error cause) =>
    if cause.blamesRule then ⟨notices, some (.error (.ofCompile request.category cause))⟩
    else ⟨notices ++ [.warning .discoveryFailed], some (.ok [])⟩

/-- The compiled rule of an artifact for a request. -/
def compiledRule (request : IndexRequest) (artifact : Artifact) : CompiledRule :=
  { rule := artifact.rule
    category := request.category
    queries := artifact.queries
    fields := artifact.fields
    text := request.text }

/-- Compiles a rule strictly with the names of a table. -/
def compileStrictly (tools : Toolchain) (request : IndexRequest) (table : Table String) :
    Pass (CompiledRule × Table String) :=
  let notices := [.entered .compiling, .compiling table true]
  match tools.compiler request.text table true with
  | none => ⟨notices, none⟩
  | some (.ok artifact) => ⟨notices, some (.ok (compiledRule request artifact, table))⟩
  | some (.error cause) => ⟨notices, some (.error (.ofCompile request.category cause))⟩

/-- Compiles a rule in two passes; the table of the second pass is returned with it. -/
def compileTwice (tools : Toolchain) (request : IndexRequest) :
    Pass (CompiledRule × Table String) :=
  (tools.discover request).followedBy fun fields =>
    tools.compileStrictly request (tools.resolver fields)

/-- Compiles a rule for a category without storing it. -/
def preview (tools : Toolchain) (text category : String) : Pass CompiledRule :=
  let request := IndexRequest.make text category false .none
  match request.validate with
  | .error fault => ⟨[], some (.error (.invalidRequest fault))⟩
  | .ok () =>
    (tools.compileTwice request).followedBy fun (compiled, _) => ⟨[], some (.ok compiled)⟩

/-- The compiler of this library with fields that keep their names. -/
def standard : Toolchain :=
  { compiler := standardCompiler, resolver := .identity }

end Toolchain

end SigmaCatalog
