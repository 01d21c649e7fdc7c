import Telemetry.Report.Row
import Telemetry.Text.Blank
import Telemetry.Text.NaturalOrder

/-!
The layout of a report. An element is shown under its shortest name that no other row has at the
same level. Lines are in natural order of the names shown; rows with one name stay together in
their own order. Names are flush right and values flush left; what is left blank at the end of a
line is cut off.

The columns are as wide as the longest text in bytes, and sixteen bits have to hold the width.
-/

namespace Telemetry

namespace Report

def displayName (options : Options) (rows : List Row) (r : Row) : String :=
  if options.longNames then r.long
  else if (rows.map (·.short)).count r.short = 1 then r.short
  else if (rows.map (·.partialName)).count r.partialName = 1 then r.partialName
  else r.long

structure Group where
  name : String
  rows : List Row

def addRow (name : String) (r : Row) : List Group → List Group
  | [] => [⟨name, [r]⟩]
  | g :: rest =>
    if g.name = name then { g with rows := g.rows ++ [r] } :: rest else g :: addRow name r rest

def groups (options : Options) (rows : List Row) : List Group :=
  rows.foldl (fun gs r => addRow (displayName options rows r) r gs) []

def widest (texts : List String) : Nat := (texts.map String.utf8ByteSize).foldl max 0

def valueLine (options : Options) (nameWidth valueWidth : Nat) (name : String) (r : Row) :
    List Char :=
  let line := Text.padLeft nameWidth name.toList ++ [':', ' '] ++
    Text.padRight valueWidth r.value.toList
  Text.trimEnd (if options.lastUpdate then line ++ s!"    [{r.lastUpdate}]".toList else line)

def labelLine (nameWidth : Nat) (label : String × String) : List Char :=
  Text.padLeft nameWidth [] ++ s!"  <{label.1}=\"{label.2}\">".toList

def rowLines (options : Options) (nameWidth valueWidth : Nat) (name : String) (r : Row) :
    List (List Char) :=
  valueLine options nameWidth valueWidth name r ::
    if options.labels then r.labels.map (labelLine nameWidth) else []

def lines (options : Options) (rows : List Row) : Except Overflow (List (List Char)) := do
  let sorted := naturalSort Group.name (groups options rows)
  let nameWidth ← Overflow.layout.unlessFits 16 (widest (sorted.map (·.name)))
  let valueWidth ← Overflow.layout.unlessFits 16 (widest (rows.map (·.value)))
  .ok (sorted.flatMap fun g => g.rows.flatMap (rowLines options nameWidth valueWidth g.name))

def text (lines : List (List Char)) : String := String.ofList (lines.flatMap (· ++ ['\n']))

end Report

end Telemetry
