import KernelGrid.Arena
import KernelGrid.Inst.Statement
import Std.Data.TreeMap

/-!
# Modules

A module owns its instructions in one arena and lists them by section, in the order in which they
are written.  An edit is a change of a module that returns a value.
-/

namespace KernelGrid

/-- The bound is above every result id in use. -/
structure Header where
  version : Word
  generator : Word
  bound : ResultId
deriving DecidableEq, Repr

namespace Header

/-- The header of a new module, in version 1.0 of the format. -/
def initial : Header := ⟨0x10000, 0, 1⟩

def text (h : Header) : String :=
  let major := (h.version >>> 16) &&& 0xff
  let minor := (h.version >>> 8) &&& 0xff
  let generator := Text.hexadecimal h.generator.toNat
  s!"; SPIR-V {major}.{minor}, generator 0x{generator}, bound {h.bound}"

end Header

structure Block where
  label : Handle
  body : List Handle
deriving DecidableEq, Repr

/-- A function without blocks is a declaration. -/
structure FunctionDef where
  function : Handle
  parameters : List Handle
  blocks : List Block
deriving DecidableEq, Repr

def FunctionDef.empty (function : Handle) : FunctionDef := ⟨function, [], []⟩

/-- What makes a declaration of a type or constant the same as another: types are told apart by
kind alone, constants by type and kind. -/
structure Description where
  type : Option Handle
  kind : Kind Handle
deriving DecidableEq

structure Module where
  header : Header
  insts : Arena (Inst Handle)
  ids : Std.TreeMap ResultId Handle
  capabilities : List Handle
  extensions : List Handle
  extInstImports : List Handle
  memoryModel : Option Handle
  entryPoints : List (EntryPoint Handle)
  /-- Without the work group sizes that entry points hold. -/
  executionModes : List Handle
  debug : List Handle
  /-- Decorations, in the order in which they were attached. -/
  annotations : List Handle
  /-- Types, constants and global variables in declaration order. -/
  globals : List Handle
  functions : List FunctionDef
  /-- Descriptions under which declarations can be found again; the first entry counts. -/
  interned : List (Description × Handle)
  /-- Struct types that are never found by their description. -/
  distinct : List Handle

abbrev Edit := StateM Module

namespace Module

def empty : Module where
  header := .initial
  insts := .empty
  ids := .empty
  capabilities := []
  extensions := []
  extInstImports := []
  memoryModel := none
  entryPoints := []
  executionModes := []
  debug := []
  annotations := []
  globals := []
  functions := []
  interned := []
  distinct := []

instance : Inhabited Module := ⟨empty⟩

/-- The instruction at a handle; a handle of no instruction reads as an unnumbered
placeholder. -/
def inst (m : Module) (h : Handle) : Inst Handle :=
  (m.insts.get? h).getD (.plain .placeholder)

def kindOf (m : Module) (h : Handle) : Kind Handle := (m.inst h).kind

def typeOf? (m : Module) (h : Handle) : Option Handle := (m.inst h).resultType

/-- The result id, or zero where there is none. -/
def idOf (m : Module) (h : Handle) : ResultId := (m.inst h).resultId.getD 0

def byId? (m : Module) (id : ResultId) : Option Handle := m.ids[id]?

/-- Changes one instruction in place. -/
def modifyInst (h : Handle) (f : Inst Handle → Inst Handle) : Edit Unit :=
  modify fun m => { m with insts := m.insts.modify h f }

def setKind (h : Handle) (kind : Kind Handle) : Edit Unit :=
  modifyInst h fun i => { i with kind }

/-- A fresh result id. -/
def allocId : Edit ResultId :=
  modifyGet fun m =>
    (m.header.bound, { m with header.bound := Word.next m.header.bound })

/-- Stores an instruction and registers its result id.  It is put into no section. -/
def append (i : Inst Handle) : Edit Handle :=
  modifyGet fun m =>
    let handle := m.insts.nextHandle
    let m := { m with insts := m.insts.push i }
    match i.resultId with
    | none => (handle, m)
    | some id =>
      (handle, { m with
        ids := m.ids.insert id handle
        header.bound := max m.header.bound (Word.next id) })

/-- Stores an instruction under a fresh result id. -/
def define (type : Option Handle) (kind : Kind Handle) : Edit Handle := do
  let id ← allocId
  append ⟨type, some id, kind⟩

end Module

end KernelGrid
