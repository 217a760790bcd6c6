import JsonExpect.Options.Setting
import JsonExpect.Path.Error

/-!
# The option tree

A `Node` holds the options of one location: the overrides it sets itself and the bundle it falls
back to. Its children are named by object keys and written indices, and its template stands for
every name that has no child. `Node.set` writes a setting at a path, `Node.unset` takes back what
has been set there, and `Node.resolve` reads the configuration of a child. A setting behind a
wildcard goes to the template and to every child there is; a child that is made later starts as a
copy of the template. Both change a tree in place, so a path that cannot be followed to its end
leaves a tree that is partly changed.
-/

namespace JsonExpect

/-- An action on a part of a state. What it has changed is put back even where it fails. -/
def onPart (part : σ → τ) (put : σ → τ → σ) (act : EStateM ε τ α) : EStateM ε σ α := fun s =>
  match act (part s) with
  | .ok a t => .ok a (put s t)
  | .error e t => .error e (put s t)

/-- The options of one location and of what lies below it. -/
structure Node where
  name : Option String := none
  defaults : Bundle := {}
  own : Overrides := {}
  children : List (String × Node) := []
  template : Option Node := none
deriving Inhabited

namespace Node

/-- The value of a flag at the node: its own override, else its bundle's, if that has one. -/
def flag? (n : Node) (f : Flag) : Option Bool := n.own.get f <|> n.defaults.get f

/-- Whether a flag holds at the node. One that is left open does not. -/
def flag (n : Node) (f : Flag) : Bool := (n.flag? f).getD false

def elementCount (n : Node) : Option Int := n.own.elementCount

/-- The child of a name, if there is one. -/
def child? (n : Node) (name : String) : Option Node := n.children.lookup name

/-- The configuration of a child by name. Each override is the child's own, else the template's; the
bundle is the child's, else the template's, else this node's. Overrides of this node never apply. -/
def resolve (n : Node) (name : String) : Node :=
  match n.child? name, n.template with
  | some c, some t =>
    ⟨some name, c.defaults, c.own.orElse t.own, c.children, c.template <|> t.template⟩
  | some c, none => ⟨some name, c.defaults, c.own, c.children, c.template⟩
  | none, some t => ⟨some name, t.defaults, t.own, t.children, t.template⟩
  | none, none => ⟨some name, n.defaults, {}, [], none⟩

/-- The configuration of a child without a name: the node's bundle and nothing else. -/
def resolveUnnamed (n : Node) : Node := { defaults := n.defaults }

/-- The configuration at the end of a sequence of names. -/
def resolveAll (n : Node) (names : List String) : Node := names.foldl resolve n

/-- A node that nothing has been set at, with a bundle to fall back to. -/
def fresh (name : Option String) (defaults : Bundle) : Node := { name, defaults }

/-- The child that a new setting goes to: the present one, else a copy of the template, else a fresh
node. -/
def childOrNew (n : Node) (name : String) : Node :=
  match n.child? name, n.template with
  | some c, _ => c
  | none, some t => { t with name := some name }
  | none, none => fresh (some name) n.defaults

/-- The template that a new setting behind a wildcard goes to: the present one, else a fresh node.
-/
def templateOrNew (n : Node) (wildcard : Component) : Node :=
  n.template.getD (fresh wildcard.nodeName? n.defaults)

/-- The children with `c` under `name`: in place when the name is there, else at the end. -/
def putChild (name : String) (c : Node) : List (String × Node) → List (String × Node)
  | [] => [(name, c)]
  | d :: ds => if d.1 = name then (name, c) :: ds else d :: putChild name c ds

def withTemplate (n t : Node) : Node := { n with template := some t }

def withChild (n : Node) (name : String) (c : Node) : Node :=
  { n with children := putChild name c n.children }

def withChildren (n : Node) (children : List (String × Node)) : Node := { n with children }

/-- Children changed one after the other. -/
def eachChild (act : EStateM PathError Node Unit) : EStateM PathError (List (String × Node)) Unit
  | [] => .ok () []
  | (name, c) :: cs =>
    match act c with
    | .error e c => .error e ((name, c) :: cs)
    | .ok _ c =>
      match eachChild act cs with
      | .error e cs => .error e ((name, c) :: cs)
      | .ok _ cs => .ok () ((name, c) :: cs)

/-- Changes a node by `f` at every location that the components lead to, below a wildcard at the
template before the children. An index that names no node ends this where it stands: the nodes that
have been made on the way are left. -/
def navigate (f : Node → Node) : List Component → EStateM PathError Node Unit
  | [] => modify f
  | c :: cs =>
    if c.isWildcard then do
      onPart (·.templateOrNew c) withTemplate (navigate f cs)
      onPart (·.children) withChildren (eachChild (navigate f cs))
    else
      match c.nodeName? with
      | some name => onPart (·.childOrNew name) (·.withChild name) (navigate f cs)
      | none => throw .unnamedIndex

mutual

/-- The node and everything below it with the bundle `b`. -/
def fill (b : Bundle) : Node → Node
  | ⟨name, _, own, children, template⟩ =>
    ⟨name, b, own, fillChildren b children, fillTemplate b template⟩

/-- Children with the bundle `b`, all the way down. -/
def fillChildren (b : Bundle) : List (String × Node) → List (String × Node)
  | [] => []
  | (name, c) :: cs => (name, fill b c) :: fillChildren b cs

/-- A template with the bundle `b`, all the way down. -/
def fillTemplate (b : Bundle) : Option Node → Option Node
  | none => none
  | some t => some (fill b t)

end

/-- The node with a setting applied to it. Over a subtree a flag changes the bundle, which then
replaces every bundle below as a whole; an element count never reaches further than the node. -/
def apply (s : Setting) (scope : Scope) (n : Node) : Node :=
  match s, scope with
  | .flag f on, .subtree => n.fill (n.defaults.put (some on) f)
  | s, _ => { n with own := n.own.set s }

/-- The node without its own value of an option. Over a subtree a flag is left open in the bundle,
which then replaces every bundle below as a whole. -/
def clear (k : OptionKind) (scope : Scope) (n : Node) : Node :=
  match k, scope with
  | .flag f, .subtree => n.fill (n.defaults.put none f)
  | k, _ => { n with own := n.own.unset k }

/-- Applies a setting at a path. -/
def set (s : Setting) (path : Path) (scope : Scope) : EStateM PathError Node Unit :=
  navigate (apply s scope) path.components

/-- Takes an option back at a path. -/
def unset (k : OptionKind) (path : Path) (scope : Scope) : EStateM PathError Node Unit :=
  navigate (clear k scope) path.components

end Node

end JsonExpect
