namespace Switchboard

/-- A record of the log as it is written. -/
structure LogLine where
  level : String
  target : String
  message : String
  deriving DecidableEq

def LogLine.text (l : LogLine) : String := l.level ++ " " ++ l.target ++ " " ++ l.message

end Switchboard
