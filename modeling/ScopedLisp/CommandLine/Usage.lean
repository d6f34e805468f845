/-!
# The usage text

What the command line prints about itself.
-/

namespace ScopedLisp.CommandLine

/-- The name of the program. -/
def programName : String := "hoot"

/-- The summary of the arguments. -/
def usage : String :=
  "usage: hoot [-h] [--dump] [--max-steps MAX_STEPS] [--log-level LOG_LEVEL]\n"
    ++ "            program\n"

/-- The answer to a request for help. -/
def help : String :=
  usage
    ++ "\nEvaluate a hoot program and print its result.\n"
    ++ "\npositional arguments:\n"
    ++ "  program               program text, e.g. \"(+ 1 2)\"\n"
    ++ "\noptions:\n"
    ++ "  -h, --help            show this help message and exit\n"
    ++ "  --dump                print the runtime state (symbols, objects, strings,\n"
    ++ "                        scopes) after evaluation\n"
    ++ "  --max-steps MAX_STEPS\n"
    ++ "                        abort after this many evaluation steps (default:\n"
    ++ "                        $HOOT_MAX_STEPS or unlimited)\n"
    ++ "  --log-level LOG_LEVEL\n"
    ++ "                        logging level, e.g. DEBUG (default: $HOOT_LOG_LEVEL or\n"
    ++ "                        WARNING)\n"

end ScopedLisp.CommandLine
