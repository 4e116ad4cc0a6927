import ValueDocs.Json.Basic

/-!
# Version — the version of the program

The version has three numbers and perhaps a suffix; a banner names it with its maker and date.
-/

namespace ValueDocs.Version

/-- The first number of the version. -/
def major : Nat := 0

/-- The second number of the version. -/
def minor : Nat := 3

/-- The third number of the version. -/
def patch : Nat := 0

/-- The mark of a version that is no release. -/
def suffix : String := ""

/-- The date of the version. -/
def buildDate : String := "2026-03-02"

/-- The maker of the program. -/
def organization : String := "Adservio"

/-- The written version without its suffix. -/
def number : String := ".".intercalate ([major, minor, patch].map toString)

/-- The written version. -/
def full : String := if suffix.isEmpty then number else number ++ "-" ++ suffix

/-- The line that names the program. -/
def banner : String := "docval v" ++ number ++ " | " ++ organization ++ " | " ++ buildDate

/-- The parts of the version as a data tree. -/
def info : Json :=
  .obj [("version", .str number), ("major", .int major), ("minor", .int minor),
    ("patch", .int patch), ("suffix", .str suffix), ("full", .str full),
    ("build_date", .str buildDate), ("organization", .str organization)]

end ValueDocs.Version
