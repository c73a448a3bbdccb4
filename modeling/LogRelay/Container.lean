import LogRelay.Json.Shape
/-!
# Containers

What the runtime says of a container when one of its log streams is opened or read: who it is, its
environment, and the log options that it was started with.  Only the name is looked into at once;
every other value is kept as it was sent.

## Main definitions

* `Container`, `Container.ofJson`
* `Container.environment`: the environment as a table.
* `Container.topic`, `Container.tag`: where the container's records go and what they are marked
  with.
-/
namespace LogRelay

/-- A container as the runtime describes it. -/
structure Container where
  id : Json := .str []
  name : Text := []
  imageName : Json := .str []
  imageId : Json := .str []
  env : List Json := []
  options : Members Json Json := []

instance : Inhabited Container := ⟨{}⟩

namespace Container

/-- The slashes at the start of a name are no part of it. -/
def trimName (name : Json) : Except ShapeError Text :=
  match name with
  | .str t => .ok (t.dropWhile (· = '/'))
  | _ => .error (.noText name.typeName)

/-- The container that the runtime's description gives.  A missing or empty value is the empty one
of its kind. -/
def ofJson (info : Json) : Except ShapeError Container := do
  let members ← info.members
  let given (key : Text) (default : Json) : Json := Json.orElse (Members.get? key members) default
  return {
    id := given "ContainerID" (.str [])
    name := ← trimName (given "ContainerName" (.str []))
    imageName := given "ContainerImageName" (.str [])
    imageId := given "ContainerImageID" (.str [])
    env := ← (given "ContainerEnv" (.arr [])).items
    options := ← (given "Config" (.obj [])).toTable }

/-- An option of the container, unless it is missing or empty. -/
def option (c : Container) (key : Text) (default : Json) : Json :=
  Json.orElse (Members.getBy? Json.sameKey (.str key) c.options) default

/-! ## The environment -/

/-- What stands before and after the first equals sign of an environment entry.  An entry without
one says nothing. -/
def binding (item : Json) : Except ShapeError (Option (Text × Text)) :=
  match item with
  | .str t => .ok (Text.cut? '=' t)
  | _ => match item.items? with
    | none => .error (.noSearch item.typeName)
    | some items =>
      if items.any (Json.sameKey (.str "=")) then .error (.noText item.typeName) else .ok none

/-- The bindings of a list of environment entries, in order. -/
def bindings : List Json → Except ShapeError (List (Text × Text))
  | [] => .ok []
  | item :: rest => do
    let first ← binding item
    return first.toList ++ (← bindings rest)

/-- The environment as a table; the last entry for a name counts. -/
def environment (env : List Json) : Except ShapeError (Members Text Text) :=
  return Members.ofPairs (← bindings env)

/-! ## Topic and tag -/

/-- The values that stand for the container's own name and identifier. -/
def substitute (c : Container) (value : Json) : Json :=
  if value.str? = some "$CONTAINERNAME" then .str c.name
  else if value.str? = some "$CONTAINERID" then c.id
  else value

/-- The value of a setting for this container: what the environment gives it, else the default, with
the container's name or identifier put in the place of a value that stands for one of them. -/
def resolve (c : Container) (key : Text) (default : Json) : Except ShapeError Json := do
  let value := Members.get? key (← environment c.env)
  return c.substitute (match value with
    | some t => .str t
    | none => default)

/-- The topic of the container's records. -/
def topic (c : Container) (default : Json) : Except ShapeError Json :=
  c.resolve "LOG_TOPIC" default

/-- The tag of the container's records. -/
def tag (c : Container) (default : Json) : Except ShapeError Json :=
  c.resolve "LOG_TAG" default

end Container

end LogRelay
