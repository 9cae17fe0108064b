/-!
# What the command line says about itself
-/

namespace Dialects.CommandLine

/-- The name of the program. -/
def program : String := "pylenient"

/-- The version of the program. -/
def version : String := program ++ " 0.1.0\n"

/-- How the program is used. -/
def usage : String :=
  "usage: pylenient [-h] [--to \x7blenient,canonical\x7d] [--language \x7bjs,json\x7d]\n" ++
  "                 [--write] [--config CONFIG] [-v] [--version]\n" ++
  "                 path\n"

/-- What the arguments mean. -/
def help : String :=
  usage ++
  "\n" ++
  "Convert a JS/JSON file between its canonical and lenient form.\n" ++
  "\n" ++
  "positional arguments:\n" ++
  "  path                  file to convert\n" ++
  "\n" ++
  "options:\n" ++
  "  -h, --help            show this help message and exit\n" ++
  "  --to \x7blenient,canonical\x7d\n" ++
  "                        target dialect (default: lenient)\n" ++
  "  --language \x7bjs,json\x7d  language of the file (default: guessed from the file\n" ++
  "                        suffix)\n" ++
  "  --write               rewrite the file in place instead of printing\n" ++
  "  --config CONFIG       explicit config.ini\n" ++
  "  -v, --verbose         debug logging\n" ++
  "  --version             show program's version number and exit\n"

/-- The complaint about a command line that is not understood. -/
def complaint (message : String) : String :=
  usage ++ program ++ ": error: " ++ message ++ "\n"

end Dialects.CommandLine
