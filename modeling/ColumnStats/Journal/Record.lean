import ColumnStats.Text.Terminal

/-!
# Log records

A record has a level, the part of the program that it comes from and a message. Levels are ordered
by weight: a threshold shows itself and all heavier ones.

* `Record.shown`: what a threshold lets through;
* `Record.line`: the line of a record, with the level padded to five letters;
* `Record.lines`: the printed lines, which cannot steer a terminal.
-/

namespace ColumnStats

/-- The weight of a record, heaviest first. -/
inductive Level where
  | error
  | warn
  | info
  | debug
  | trace
  deriving DecidableEq, Repr

namespace Level

/-- The position in the order of weight. -/
def rank : Level → Nat
  | error => 0
  | warn => 1
  | info => 2
  | debug => 3
  | trace => 4

/-- The name of a level in a printed line. -/
def name : Level → String
  | error => "ERROR"
  | warn => "WARN"
  | info => "INFO"
  | debug => "DEBUG"
  | trace => "TRACE"

/-- The level that a setting names, in small letters. -/
def ofName? : String → Option Level
  | "error" => some error
  | "warn" => some warn
  | "info" => some info
  | "debug" => some debug
  | "trace" => some trace
  | _ => none

end Level

/-- One record of what a run did. -/
structure Record where
  level : Level
  target : String
  message : String
  deriving DecidableEq, Repr

namespace Record

/-- The records that a threshold lets through; without a threshold, none. -/
def shown (threshold : Option Level) (records : List Record) : List Record :=
  records.filter fun record => threshold.any fun level => record.level.rank ≤ level.rank

/-- The printed line of a record, the level's name filled up to five characters. -/
def line (record : Record) : String :=
  let name := record.level.name
  "[" ++ name.pushn ' ' (5 - name.length) ++ " " ++ record.target ++ "] " ++ record.message ++ "\n"

/-- The printed lines of the records that a threshold lets through. -/
def lines (threshold : Option Level) (records : List Record) : String :=
  String.join ((shown threshold records).map fun record => Text.Terminal.plain record.line)

end Record

end ColumnStats
