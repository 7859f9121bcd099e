/-!
# Commands

The commands are a closed set. Each has a canonical name; four names are aliases.
-/

namespace PuzzleShell

inductive Command where
  | ls | cd | cat | pwd | echo | mkdir | touch | rm | chmod | grep | find | du | tar | apt | nano
  | clear | help | whoami | date | uname | man | history | ps | free | df | top | ifconfig | ping
deriving DecidableEq, Repr

namespace Command

def name : Command → String
  | ls => "ls"
  | cd => "cd"
  | cat => "cat"
  | pwd => "pwd"
  | echo => "echo"
  | mkdir => "mkdir"
  | touch => "touch"
  | rm => "rm"
  | chmod => "chmod"
  | grep => "grep"
  | find => "find"
  | du => "du"
  | tar => "tar"
  | apt => "apt"
  | nano => "nano"
  | clear => "clear"
  | help => "help"
  | whoami => "whoami"
  | date => "date"
  | uname => "uname"
  | man => "man"
  | history => "history"
  | ps => "ps"
  | free => "free"
  | df => "df"
  | top => "top"
  | ifconfig => "ifconfig"
  | ping => "ping"

/-- Every name that can be typed, in order. -/
def table : List (String × Command) := [
  ("apt", apt), ("apt-get", apt), ("cat", cat), ("cd", cd), ("chmod", chmod), ("clear", clear),
  ("date", date), ("df", df), ("du", du), ("echo", echo), ("find", find), ("free", free),
  ("grep", grep), ("help", help), ("history", history), ("htop", top), ("ifconfig", ifconfig),
  ("ls", ls), ("man", man), ("mkdir", mkdir), ("nano", nano), ("ping", ping), ("ps", ps),
  ("pwd", pwd), ("rm", rm), ("tar", tar), ("top", top), ("touch", touch), ("uname", uname),
  ("vi", nano), ("vim", nano), ("whoami", whoami)]

def ofName? (s : String) : Option Command := table.lookup s

def names : List String := table.map (·.1)

theorem sorted_names : names.Pairwise (· < ·) := by decide

theorem ofName?_name (c : Command) : ofName? c.name = some c := by cases c <;> rfl

end Command

end PuzzleShell
