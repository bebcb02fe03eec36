import FlowFacts.Context.Basic

namespace FlowFacts

namespace Context

def renderPlace (c : Context) : String :=
  match c.above with
  | [] => " (root)"
  | parent :: _ => s!" (sub of {parent.render})"

def renderHeader (c : Context) (id : ContextId) : String :=
  let dead := if c.unreachable then ", unreachable" else ""
  let joined :=
    match c.joinedAt with
    | some node => s!", merged at {node.render}"
    | none => ""
  id.render ++ c.renderPlace ++ s!" at {c.node.render}" ++ dead ++ joined ++ "\n"

def renderAssigned : Option Bool → String
  | some true => " set"
  | some false => " unset"
  | none => ""

def renderNarrowed : Option (Option Ty) → String
  | some (some ty) => s!" narrowed to {ty.render}"
  | some none => " declared type"
  | none => ""

def renderEntry (c : Context) (x : LocalId) : String :=
  s!"  {x.render}:" ++ renderAssigned (c.assigned.get? x) ++ renderNarrowed (c.narrowed.get? x) ++
    "\n"

def render (c : Context) (id : ContextId) : String :=
  c.renderHeader id ++ String.join (c.mentioned.eraseDups.map c.renderEntry)

end Context

def ContextTree.render (t : ContextTree) (c : ContextId) : Except Failure String :=
  (t.context c).map (·.render c)

end FlowFacts
