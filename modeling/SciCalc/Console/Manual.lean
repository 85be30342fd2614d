/-
  The texts that explain the program: how it is called, and what can be typed.
-/
import SciCalc.Mode

namespace SciCalc.Console

/-- How the program is called. -/
def usageText : String := Text.join "\n"
  ["usage: sciexpr [-h] [-e EVAL_EXPR] [--format \x7bjson,human\x7d]",
    "               [--angle \x7brad,deg,grad\x7d]",
    "               [--precision-mode \x7bieee754,bigint,decimal\x7d]",
    "               [--complex \x7boff,on,auto\x7d] [-p PRECISION] [--rounding ROUNDING]",
    "               [--var NAME=VALUE] [--rpn] [--validate] [-v]",
    "               [--log-level \x7bDEBUG,INFO,WARNING,ERROR\x7d] [--log-file LOG_FILE]"]

/-- What the options of a call mean. -/
def optionsText : String := Text.join "\n"
  [usageText,
    "",
    "options:",
    "  -h, --help            show this help message and exit",
    "  -e EVAL_EXPR, --eval EVAL_EXPR",
    "                        Evaluate one expression and exit (non-interactive)",
    "  --format \x7bjson,human\x7d",
    "                        Output format: json (machine-readable) or human",
    "                        (human-readable)",
    "  --angle \x7brad,deg,grad\x7d",
    "                        Angle unit",
    "  --precision-mode \x7bieee754,bigint,decimal\x7d",
    "                        Numeric regime",
    "  --complex \x7boff,on,auto\x7d",
    "                        Complex number policy",
    "  -p PRECISION, --precision PRECISION",
    "                        Decimal precision in digits (1-1000)",
    "  --rounding ROUNDING   Rounding policy for round()",
    "  --var NAME=VALUE      Bind a variable before evaluating (repeatable)",
    "  --rpn                 Also print the RPN form of --eval",
    "  --validate            Validate the --eval expression instead of evaluating",
    "                        it",
    "  -v, --version         Show program version",
    "  --log-level \x7bDEBUG,INFO,WARNING,ERROR\x7d",
    "                        Set logging level",
    "  --log-file LOG_FILE   Write logs to file"]

/-- Names with bars between them. -/
def alternatives (names : List String) : String := Text.join "|" names

/-- What can be typed. -/
def commandsText : String := Text.join "\n"
  ["sciexpr version " ++ Limit.version,
    "",
    "Expressions:",
    "  2+3*4, 2^3^2, (1+2)*3, 7 // 2, 7 % 3, 3 < 4 && 2 == 2",
    "  sin(pi/6), log10(1000), max(1, 5, 3), factorial(25), gcd(12, 18)",
    "",
    "Assignments and definitions:",
    "  x = 2 + 3                   bind a variable",
    "  f(x, y) = x^2 + y           define a function",
    "",
    "Commands:",
    "  help                        show this help message",
    "  quit, exit                  leave the REPL",
    "  history                     show successful calculations",
    "  vars                        show variable bindings",
    "  clear                       clear variables and history",
    "  modes                       show the current modes",
    "  mode <name> <value>         set a mode:",
    "                                angle " ++ alternatives (AngleUnit.all.map (·.name)),
    "                                precision_mode " ++ alternatives (Regime.all.map (·.name)),
    "                                complex " ++ alternatives (ComplexPolicy.all.map (·.name)),
    "                                rounding " ++ alternatives (RoundingPolicy.all.map (·.name)),
    "                                digits <1..1000>",
    "  functions [category]        list functions",
    "  rpn <expression>            show the RPN form of an expression",
    ""]

/-- The first line of an interactive session. -/
def welcomeText : String :=
  "sciexpr " ++ Limit.version ++ ". Type 'help' for commands, 'quit' to exit."

end SciCalc.Console
