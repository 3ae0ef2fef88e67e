import Abacus.CommandLine.Arguments

/-!
# Usage and help

The texts that tell how the program is called, laid out for 80 columns.
-/

namespace Abacus.CommandLine

/-- How the program is called. -/
def usage : String :=
  "usage: linecalc [-h] [-e EXPRESSION] [--tokens] [--prompt PROMPT]\n" ++
  "                [--history-file HISTORY_FILE] [--log-level LOG_LEVEL]\n"

/-- The usage, what the program is, and its flags. -/
def help : String :=
  usage ++
  "\n" ++
  "Left-to-right integer calculator (no operator precedence).\n" ++
  "\n" ++
  "options:\n" ++
  "  -h, --help            show this help message and exit\n" ++
  "  -e EXPRESSION, --expression EXPRESSION\n" ++
  "                        Evaluate a single expression and exit.\n" ++
  "  --tokens              With --expression, print the token stream instead of\n" ++
  "                        the result.\n" ++
  "  --prompt PROMPT       Prompt string (default: 'calc> ').\n" ++
  "  --history-file HISTORY_FILE\n" ++
  "                        File to keep prompt history in.\n" ++
  "  --log-level LOG_LEVEL\n" ++
  "                        Logging level (default: WARNING).\n"

/-- What is written about a command line that is refused. -/
def complaint (e : UsageError) : String :=
  usage ++ s!"linecalc: error: {e.message}\n"

end Abacus.CommandLine
