/-
A date with a time of day, to the nanosecond.

A leap second is kept as the second before it with a thousand million nanoseconds or more.  That
may be any second, since a leap second of UTC need not end a minute of local time.  A time that is
put together from its parts, though, has its leap second after second 59.
-/
import FrameLang.Calendar.Date

namespace FrameLang

structure DateTime.Valid (hour minute second nanos : Nat) : Prop where
  hour_lt : hour < 24
  minute_lt : minute < 60
  second_lt : second < 60
  nanos_lt : nanos < 2000000000

structure DateTime where
  date : Date
  hour : Nat
  minute : Nat
  second : Nat
  nanos : Nat
  valid : DateTime.Valid hour minute second nanos
deriving DecidableEq

namespace DateTime

instance (hour minute second nanos : Nat) : Decidable (Valid hour minute second nanos) :=
  decidable_of_iff
    (hour < 24 ∧ minute < 60 ∧ second < 60 ∧ nanos < 2000000000)
    ⟨fun ⟨a, b, c, d⟩ => ⟨a, b, c, d⟩, fun ⟨a, b, c, d⟩ => ⟨a, b, c, d⟩⟩

/-- A leap second, if this is one, ends its minute. -/
abbrev EndsMinute (second nanos : Nat) : Prop := 1000000000 ≤ nanos → second = 59

def ofParts? (date : Date) (hour minute second nanos : Nat) : Option DateTime :=
  if h : Valid hour minute second nanos ∧ EndsMinute second nanos then
    some ⟨date, hour, minute, second, nanos, h.1⟩
  else none

/-- The time that a reader of the text is told: a leap second that does not end its minute is
written as the plain second that it falls on. -/
def shown (t : DateTime) : DateTime :=
  if h : EndsMinute t.second t.nanos then t
  else
    { t with
      second := t.second + 1
      nanos := t.nanos - 1000000000
      valid :=
        have ⟨hhour, hminute, hsecond, hnanos⟩ := t.valid
        ⟨hhour, hminute, by omega, by omega⟩ }

/-- Earlier times first. -/
def compare (a b : DateTime) : Ordering :=
  (a.date.compare b.date).then <| (Ord.compare a.hour b.hour).then <|
    (Ord.compare a.minute b.minute).then <| (Ord.compare a.second b.second).then <|
    Ord.compare a.nanos b.nanos

end DateTime
end FrameLang
