import Exokernel.Log
/-!
# The console

What is printed goes to one sink. Records of the log go there too, each as a line, once a logger is
installed and as far as its threshold lets them through. The first logger stays.
-/

namespace Exokernel

/-- The logger of the console. -/
structure Logger where
  /-- The least important level that is shown. -/
  threshold : Log.Threshold := some .info
  /-- A logger has been installed. -/
  installed : Bool := true

namespace Logger

/-- The record is shown. -/
def shows (l : Logger) (r : Log.Record) : Bool :=
  l.installed && l.threshold.admits r.level

/-- Installs a logger with a threshold, which works only once. -/
def install? (l : Logger) (t : Log.Threshold) : Option Logger :=
  if l.installed then none else some { threshold := t, installed := true }

/-- Why a second logger is refused. -/
def alreadyInstalled : String :=
  "attempted to set a logger after the logging system was already initialized"

end Logger

/-- The console with everything written to it. -/
structure Console where
  logger : Logger := {}
  written : String := ""

namespace Console

/-- Writes a text. -/
def print (c : Console) (s : String) : Console := { c with written := c.written ++ s }

/-- Writes a text and ends the line. -/
def printLine (c : Console) (s : String) : Console := c.print (s ++ "\n")

/-- Shows a record of the log. -/
def log (c : Console) (r : Log.Record) : Console :=
  if c.logger.shows r then c.printLine r.line else c

/-- Shows the records of other levels from now on. -/
def setThreshold (c : Console) (t : Log.Threshold) : Console :=
  { c with logger := { c.logger with threshold := t } }

end Console

end Exokernel
