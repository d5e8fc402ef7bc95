import Fexpr.Options

/-!
# Help texts

What the command prints about its own use.
-/

namespace Fexpr.Options

/-- How the command is used. -/
def usage : String :=
  "usage: crisp [-h] [--log-level \x7bDEBUG,INFO,WARNING,ERROR,CRITICAL\x7d]\n"
    ++ "             [--log-file LOG_FILE] [--no-echo]\n"
    ++ "             [files ...]\n"

/-- The answer to a wish for help. -/
def help : String :=
  usage
    ++ "\n"
    ++ "Run Crisp programs, or start an interactive session when no files are given.\n"
    ++ "\n"
    ++ "positional arguments:\n"
    ++ "  files                 Source files to run in order ('-' reads stdin)\n"
    ++ "                        (default: None)\n"
    ++ "\n"
    ++ "options:\n"
    ++ "  -h, --help            show this help message and exit\n"
    ++ "  --log-level \x7bDEBUG,INFO,WARNING,ERROR,CRITICAL\x7d\n"
    ++ "                        Logging level (default: WARNING)\n"
    ++ "  --log-file LOG_FILE   Write logs to this file instead of stderr (default:\n"
    ++ "                        None)\n"
    ++ "  --no-echo             Do not print REPL results (default: False)\n"

/-- The answer to a command line that is not accepted. -/
def complaint (fault : UsageFault) : String :=
  usage ++ "crisp: error: " ++ fault.message ++ "\n"

end Fexpr.Options
