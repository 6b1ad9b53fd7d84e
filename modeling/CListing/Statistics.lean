/-!
# Statistics

What the log says at the end of a run, on demand.
-/

namespace CListing

/-- How many lines and pages were written. -/
def listingStatistics (lines pages : Nat) : String :=
  "Lines written: " ++ toString lines ++ "\nPages written: " ++ toString pages ++ "\n"

/-- How many functions were met and how many tokens were missing. -/
def walkStatistics (functions missing : Nat) : String :=
  "Functions formatted: " ++ toString functions ++ "\nMissing tokens reported: " ++
    toString missing ++ "\n"

end CListing
