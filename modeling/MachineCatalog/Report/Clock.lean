/-
# The time of a report

Reports say when they were made and by which version of the tool.
-/

import MachineCatalog.Calendar.Moment

namespace MachineCatalog
namespace Report

/-- The name of the tool. -/
def toolName : Text := "gcemodel"

/-- The version of the tool. -/
def toolVersion : Text := "0.3.0"

/-- The time as `YYYY-MM-DDTHH:MM:SSZ`. -/
def clockSeconds (now : Moment) : Text := now.date.text ++ "T" ++ now.time.text ++ "Z"

/-- The time as `YYYY-MM-DD HH:MM UTC`. -/
def clockMinutes (now : Moment) : Text :=
  now.date.text ++ " " ++ Text.padded 2 now.time.hour ++ ":" ++ Text.padded 2 now.time.minute ++
    " UTC"

end Report
end MachineCatalog
