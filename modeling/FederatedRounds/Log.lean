/-! Log lines: a level and a text. Each part of the library has its own type of notices, with a
level and a text for each. -/
namespace FederatedRounds

inductive Level where
  | error
  | warn
  | info
  | debug
  | trace
deriving DecidableEq

namespace Level

def name : Level → String
  | error => "ERROR"
  | warn => "WARN"
  | info => "INFO"
  | debug => "DEBUG"
  | trace => "TRACE"

/-- Zero is the most severe. -/
def rank : Level → Nat
  | error => 0
  | warn => 1
  | info => 2
  | debug => 3
  | trace => 4

def all : List Level := [error, warn, info, debug, trace]

end Level

structure LogLine where
  level : Level
  text : String

end FederatedRounds
