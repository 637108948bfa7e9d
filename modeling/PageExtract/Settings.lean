/-
Settings of the engine.

* `Settings` : tolerances and distances in units of the page, and how many blocks a fingerprint is
  computed from;
* `Settings.standard` : what holds unless something else is said;
* `Settings.ofEnvironment` : what an environment says, and an event for each value that does not
  fit.
-/
import PageExtract.Log.Basic

namespace PageExtract

/-- The settings of the engine. -/
structure Settings (ν : Type) where
  /-- How far the centres of two blocks of a row may be apart. -/
  rowTolerance : ν
  /-- How far before a column a block of it may begin. -/
  columnTolerance : ν
  /-- How far the words of an anchor may be apart. -/
  proximityThreshold : ν
  /-- How far to the right of an anchor a value may be. -/
  valueSearchDistance : ν
  /-- How many blocks a fingerprint is computed from. -/
  fingerprintBlocks : ν
deriving Repr, Inhabited

namespace Settings

/-- The usual settings. -/
def standard {ν : Type} [Numeric ν] : Settings ν := ⟨0.015, 0.03, 0.1, 0.5, 50.0⟩

/-- Whether a number is a part of a page. -/
def isPart (x : Float) : Bool := 0.0 < x && x ≤ 1.0

/-- Whether a number counts blocks. -/
def isBlockCount (x : Float) : Bool := Numeric.isInteger x && 0.0 < x

/-- The value of a name in an environment, if it is there and fits, else a fallback. A value that
does not fit is reported. -/
def setting (env : Members String) (key : String) (fallback : Float) (fits : Float → Bool) :
    Float × List LogEvent :=
  match Members.get? env key with
  | none => (fallback, [])
  | some raw =>
    if (Text.trim raw).isEmpty then (fallback, [])
    else
      let unfit : LogEvent :=
        ⟨.warn, "config.invalid_value",
          [logText "key" key, logText "value" raw, logNumber "fallback" fallback]⟩
      match Numeral.ofText? raw with
      | some x => if Numeric.isFinite x && fits x then (x, []) else (fallback, [unfit])
      | none => (fallback, [unfit])

/-- The settings of an environment, and the events of values that do not fit. -/
def ofEnvironment (env : Members String) : Settings Float × List LogEvent :=
  let usual : Settings Float := standard
  let row := setting env "LAYOUT_ROW_TOLERANCE" usual.rowTolerance isPart
  let column := setting env "LAYOUT_COLUMN_TOLERANCE" usual.columnTolerance isPart
  let proximity := setting env "LAYOUT_PROXIMITY_THRESHOLD" usual.proximityThreshold isPart
  let search := setting env "LAYOUT_VALUE_SEARCH_DISTANCE" usual.valueSearchDistance isPart
  let blocks := setting env "LAYOUT_FINGERPRINT_BLOCKS" usual.fingerprintBlocks isBlockCount
  (⟨row.1, column.1, proximity.1, search.1, blocks.1⟩,
    row.2 ++ column.2 ++ proximity.2 ++ search.2 ++ blocks.2)

end Settings

end PageExtract
