import JsonExpect.Selector.Naming

/-!
# What selectors pick

`Selector.find` lists the spots that a selector picks, in document order at each step. What holds
the whole document is no spot, which shows only when its value is asked for.
-/

namespace JsonExpect

namespace Spot

/-- What holds the value, if anything does. -/
def holder? (s : Spot) : Option Spot :=
  match s.around with
  | [] => none
  | (v, step) :: around => some ⟨.ok v, step, around⟩

/-- The whole document. -/
def root (s : Spot) : Spot :=
  match s.around.getLast? with
  | some (v, _) => { value := .ok v }
  | none => { value := s.value }

/-- A spot, or a null of its own where there is none. -/
def orNull : Option Spot → Spot
  | some s => s
  | none => { value := .ok .null }

mutual

/-- A value between the values around it and everything inside it, outer before inner, in document
order. -/
def below (step : Step) (around : List (Value × Step)) : Value → List Spot
  | .array items =>
    ⟨.ok (.array items), step, around⟩ :: belowItems 0 ((.array items, step) :: around) items
  | .object members =>
    ⟨.ok (.object members), step, around⟩ ::
      belowMembers ((.object members, step) :: around) members
  | v => [⟨.ok v, step, around⟩]

/-- The same for items in turn, from a position on. -/
def belowItems (position : Int) (around : List (Value × Step)) : List Value → List Spot
  | [] => []
  | v :: vs => below (.element position) around v ++ belowItems (position + 1) around vs

/-- The same for members in turn. -/
def belowMembers (around : List (Value × Step)) : List (Key × Value) → List Spot
  | [] => []
  | (k, v) :: ms => below (.member k) around v ++ belowMembers around ms

end

/-- A spot and everything inside it. -/
def all (s : Spot) : Except SelectorFault (List Spot) :=
  s.value.map (below s.step s.around)

end Spot

namespace Value

/-- What positions count in a value: items, characters or bytes. -/
def sequence? : Value → Option (List Value)
  | .array items => some items
  | .tuple items => some items
  | .string s => some (s.toList.map fun c => .string (String.ofList [c]))
  | .bytes _ data => some (data.map fun b => .int b.toNat)
  | _ => none

/-- The element of a value at a position, if the value counts as given. A position in an object is
the name of a member. -/
def element? (v : Value) (position : Int) : Except SelectorFault (Option Value) :=
  if !v.isGiven then .ok none
  else
    match v with
    | .object members =>
      if (members.length : Int) ≤ position then .ok none
      else
        match findMember? (.int position) members with
        | some w => .ok (some w)
        | none => .error (.noMember position)
    | v =>
      match v.sequence? with
      | none => .error (.noLength v.className)
      | some vs =>
        if 0 ≤ position then .ok vs[position.toNat]?
        else if position < -Nat.pow 2 63 then .error .largePosition
        else if (vs.length : Int) < -position then .error (.outside v.className)
        else .ok vs[(vs.length + position).toNat]?

/-- The value whose elements a slice takes, and these. An object, a text, a number or a truth value
is the one element of a value of its own; a null has none. -/
def sliced (v : Value) : Except SelectorFault (Value × List Value) :=
  match v with
  | .null => .ok (v, [])
  | .array items => .ok (v, items)
  | .tuple items => .ok (v, items)
  | .bytes _ data => .ok (v, data.map fun b => .int b.toNat)
  | .object _ | .string _ | .int _ | .float _ | .bool _ => .ok (.array [v], [v])
  | v => .error (.noLength v.className)

end Value

namespace Selector

/-- A bound of a slice among so many elements: counted from the end when negative, and moved to the
nearest of the places from `least` to `most`. -/
def bound (count least most position : Int) : Int :=
  let n := if position < 0 then position + count else position
  max least (min most n)

/-- The places of a slice among `count` elements, in its order. -/
def places (count : Nat) (start stop : Option Int) (step : Int) : List Nat :=
  let n : Int := count
  let forwards := 0 < step
  let (least, most) := if forwards then (0, n) else (-1, n - 1)
  let begin := start.elim (if forwards then least else most) (bound n least most)
  let finish := stop.elim (if forwards then most else least) (bound n least most)
  (List.range count).filterMap fun (i : Nat) =>
    let place := begin + i * step
    if (if forwards then place < finish else finish < place) then some place.toNat else none

/-- The spots of the elements at some positions. -/
def findElements (positions : List Int) (s : Spot) : Except SelectorFault (List Spot) := do
  let v ← s.value
  let found ← positions.mapM fun position => do
    return (← v.element? position).map fun w =>
      (⟨.ok w, .element position, (v, s.step) :: s.around⟩ : Spot)
  return found.filterMap id

/-- The spots that a slice picks. -/
def findSlice (start stop step : Option Int) (s : Spot) : Except SelectorFault (List Spot) := do
  let (v, parts) ← (← s.value).sliced
  let step := step.getD 1
  if v.isNull then return []
  if step = 0 then throw .zeroStep
  return (places parts.length start stop step).filterMap fun (i : Nat) =>
    parts[i]?.map fun w => ⟨.ok w, .element (i : Int), (v, s.step) :: s.around⟩

/-- The spot of a member of an object, or of the name of the object if the member gives one. -/
def memberSpot (holder : Value × Step) (around : List (Value × Step)) (m : Key × Value) : Spot :=
  if m.1 = .null then .named (holder :: around) else ⟨.ok m.2, .member m.1, holder :: around⟩

/-- The spots of the members of some names. -/
def findMembers (names : List String) (s : Spot) : Except SelectorFault (List Spot) :=
  if "*" ∈ names then
    s.value.map fun v =>
      match v with
      | .object entries => entries.map (memberSpot (v, s.step) s.around)
      | _ => []
  else
    match s.value with
    | .ok (.object entries) => .ok (names.filterMap fun name =>
        (findMember? (.string name) entries).map fun v =>
          memberSpot (.object entries, s.step) s.around (.string name, v))
    | _ => .ok []

/-- Whether a spot can be gone on from. A name cannot. -/
def isOpen : Option Spot → Bool
  | some s => s.step ≠ .name
  | none => true

/-- The spots that are picked from a spot, where there is one. -/
def find : Selector → Option Spot → Except SelectorFault (List (Option Spot))
  | .root, s => .ok [some ((Spot.orNull s).root)]
  | .self, s => .ok [some (Spot.orNull s)]
  | .holder, s => .ok [(Spot.orNull s).holder?]
  | .members names, s => (findMembers names (Spot.orNull s)).map (·.map some)
  | .elements positions, s => (findElements positions (Spot.orNull s)).map (·.map some)
  | .slice start stop step, s =>
    (findSlice start stop step (Spot.orNull s)).map (·.map some)
  | .next first second, s => do
    return (← ((← find first s).filter isOpen).mapM (find second)).flatten
  | .descent first second, s => do
    let fromSpot (t : Option Spot) : Except SelectorFault (List (Option Spot)) :=
      match t with
      | some t => do return (← (← t.all).mapM fun u => find second (some u)).flatten
      | none => do
        let _ ← find second none
        throw .noHolder
    return (← (← find first s).mapM fromSpot).flatten
  | .union first second, s => do
    let found ← find first s
    return found ++ (← find second s)
  | .both _ _, _ => .error .bothAsked
  | .filter present first second, s => do
    (← find first s).filterM fun t => do
      return (← find second t).isEmpty != present

end Selector

end JsonExpect
