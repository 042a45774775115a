/-! # Traces — results together with the events on the way to them

    Loading, walking and writing report what they did.  An event is a value;
    a `Traced` computation carries the events in order, those before a
    failure included, and binding two of them joins their events. -/

namespace Protograph

/-- How much a reader of the events has to want to see one. -/
inductive Level where
  | info
  | debug
  | trace
  deriving DecidableEq, Repr

/-- The level as it is written. -/
def Level.label : Level → String
  | .info => "INFO"
  | .debug => "DEBUG"
  | .trace => "TRACE"

/-- Something worth reporting. -/
inductive Event where
  /-- A schema of so many types is complete. -/
  | graphBuilt (types : Nat) (root : String)
  /-- The walk met a type for the first time, through a field of `owner`. -/
  | discovered (variant name owner field : String)
  /-- The walk from `root` is complete. -/
  | walked (root : String) (count : Nat)
  /-- A message with so many fields is ready. -/
  | messageReady (name : String) (fields : Nat)
  /-- An enum with so many values is ready. -/
  | enumReady (name : String) (values : Nat)
  /-- The whole document is ready. -/
  | translated (root : String) (blocks bytes : Nat)
  /-- Options came from the file whose quoted path this is. -/
  | configLoaded (quotedPath : String)
  /-- There is no usual place for options. -/
  | configHomeMissing
  /-- The output went to the file whose quoted path this is. -/
  | outputWritten (bytes : Nat) (quotedPath : String)
  deriving DecidableEq, Repr

namespace Event

/-- The level of each event. -/
def level : Event → Level
  | .graphBuilt .. => .debug
  | .discovered .. => .trace
  | .walked .. => .debug
  | .messageReady .. => .trace
  | .enumReady .. => .trace
  | .translated .. => .debug
  | .configLoaded .. => .debug
  | .configHomeMissing => .debug
  | .outputWritten .. => .info

/-- The wording of each event. -/
def message : Event → String
  | .graphBuilt types root =>
      "Built schema graph with " ++ toString types ++ " types, root '" ++ root ++ "'"
  | .discovered variant name owner field =>
      "Discovered " ++ variant ++ " '" ++ name ++ "' via '" ++ owner ++ "." ++ field ++ "'"
  | .walked root count =>
      "Emission list for '" ++ root ++ "' has " ++ toString count ++ " types"
  | .messageReady name fields =>
      "Rendered message '" ++ name ++ "' with " ++ toString fields ++ " fields"
  | .enumReady name values =>
      "Rendered enum '" ++ name ++ "' with " ++ toString values ++ " values"
  | .translated root blocks bytes =>
      "Translated schema '" ++ root ++ "' into " ++ toString blocks ++ " blocks ("
        ++ toString bytes ++ " bytes)"
  | .configLoaded path => "Loaded config from " ++ path
  | .configHomeMissing =>
      "No config directory available: Could not determine config directory"
  | .outputWritten bytes path => "Wrote " ++ toString bytes ++ " bytes to " ++ path

/-- One line of a log: the level, then the wording. -/
def line (e : Event) : String := e.level.label ++ " " ++ e.message

end Event

/-- A result, or the error in its place, with the events that led to it. -/
structure Traced (ε α : Type) where
  events : List Event
  result : Except ε α

namespace Traced

variable {ε ε' α β : Type}

/-- A result without events. -/
def ofExcept (r : Except ε α) : Traced ε α := ⟨[], r⟩

/-- Report one event. -/
def report (e : Event) : Traced ε Unit := ⟨[e], .ok ()⟩

/-- Go on with a result; an error ends the computation and keeps its events. -/
def bind (t : Traced ε α) (f : α → Traced ε β) : Traced ε β :=
  match t.result with
  | .ok a => ⟨t.events ++ (f a).events, (f a).result⟩
  | .error e => ⟨t.events, .error e⟩

instance : Monad (Traced ε) where
  pure a := ⟨[], .ok a⟩
  bind := bind

/-- Restate the error and keep all else. -/
def mapError (f : ε → ε') (t : Traced ε α) : Traced ε' α :=
  ⟨t.events, t.result.mapError f⟩

/-! ## What a step does to events and result -/

@[simp] theorem events_pure (a : α) : (pure a : Traced ε α).events = [] := rfl

@[simp] theorem result_pure (a : α) : (pure a : Traced ε α).result = .ok a := rfl

theorem bind_of_ok {t : Traced ε α} {a : α} (h : t.result = .ok a) (f : α → Traced ε β) :
    t >>= f = ⟨t.events ++ (f a).events, (f a).result⟩ := by
  show bind t f = _
  simp [bind, h]

theorem bind_of_error {t : Traced ε α} {e : ε} (h : t.result = .error e)
    (f : α → Traced ε β) : t >>= f = ⟨t.events, .error e⟩ := by
  show bind t f = _
  simp [bind, h]

/-- The result of two steps does not hang on their events. -/
theorem result_bind (t : Traced ε α) (f : α → Traced ε β) :
    (t >>= f).result = t.result.bind fun a => (f a).result := by
  cases h : t.result with
  | ok a => rw [bind_of_ok h]; rfl
  | error e => rw [bind_of_error h]; rfl

end Traced

end Protograph
