import JourneyPlanner.Text.Quoted

namespace JourneyPlanner.Clock

/-!
Clock times are whole seconds counted from the midnight that starts the service day. They
are negative before it and go past 24 hours for trips that run into the next day. A time on
paper has the form HH:MM:SS, with one to three digits of hours.
-/

def latest : Int := 2147483647

def earliest : Int := -2147483648

def clamp (time : Int) : Int :=
  max earliest (min latest time)

/-- The value of a decimal digit; only the ten ASCII digits count. -/
def digit? (c : Char) : Option Nat :=
  if '0' ≤ c ∧ c ≤ '9' then some (c.toNat - '0'.toNat) else none

/-- Read decimal digits after a number already read. -/
def digitsFrom? (value : Nat) : List Char → Option Nat
  | [] => some value
  | c :: rest =>
    match digit? c with
    | some d => digitsFrom? (10 * value + d) rest
    | none => none

/-- The fields of a text between its colons; there is always at least one. -/
def fields : List Char → List (List Char)
  | [] => [[]]
  | c :: rest =>
    if c = ':' then [] :: fields rest
    else
      match fields rest with
      | [] => [[c]]
      | first :: others => (c :: first) :: others

/-- Read three fields as hours, minutes and seconds. -/
def ofFields? (hours minutes seconds : List Char) : Option Int := do
  guard (1 ≤ hours.length ∧ hours.length ≤ 3)
  guard (minutes.length = 2 ∧ seconds.length = 2)
  let h ← digitsFrom? 0 hours
  let m ← digitsFrom? 0 minutes
  let s ← digitsFrom? 0 seconds
  guard (m < 60 ∧ s < 60)
  some (3600 * h + 60 * m + s)

/-- A text that is not a clock time. -/
structure ParseError where
  text : String
deriving DecidableEq, Repr

/-- The message quotes the text that was refused. -/
def ParseError.message (e : ParseError) : String :=
  "Invalid time " ++ Text.quoted e.text ++ ", expected HH:MM:SS."

/-- Read HH:MM:SS as seconds. Hours may exceed 23, for trips running past midnight. -/
def parse (text : String) : Except ParseError Int :=
  match fields text.toList with
  | [hours, minutes, seconds] =>
    match ofFields? hours minutes seconds with
    | some time => .ok time
    | none => .error ⟨text⟩
  | _ => .error ⟨text⟩

/-- A number in decimal, with zeros in front up to the given width. -/
def padded (width n : Nat) : List Char :=
  let digits := Nat.toDigits 10 n
  List.replicate (width - digits.length) '0' ++ digits

/-- Write a time as HH:MM:SS, with a sign in front if it lies before midnight. -/
def render (time : Int) : List Char :=
  let total := time.natAbs
  (if time < 0 then ['-'] else []) ++ padded 2 (total / 3600) ++ ':' ::
    padded 2 (total % 3600 / 60) ++ ':' :: padded 2 (total % 60)

def text (time : Int) : String :=
  String.ofList (render time)

end JourneyPlanner.Clock
