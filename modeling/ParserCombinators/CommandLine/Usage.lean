/-!
# Usage of the command
-/

namespace ParserCombinators.CommandLine

def program : String := "py -m minicombo"

def usage : String :=
  "usage: " ++ program ++ " [-h] [-s] [-e] [-l NAME=VALUE] [-c] [expressions ...]\n"

def usageError (message : String) : String := usage ++ program ++ ": error: " ++ message ++ "\n"

def helpLines : List String :=
  ["",
   "Parse arithmetic expressions and print their fully parenthesized form.",
   "",
   "Expressions come from the command line, or else one per line from standard input",
   "(type \x22quit\x22 on a line by itself, or finish stdin, to stop). Integers, variables,",
   "+ - * / and parentheses are understood, with the usual precedence.",
   "",
   "Parsing takes the longest prefix that forms an expression; anything after that is",
   "noted on standard error but is not an error unless --complete is given.",
   "",
   "positional arguments:",
   "  expressions           expressions to parse; read standard input if none are",
   "                        given",
   "",
   "options:",
   "  -h, --help            show this help message and exit",
   "  -s, --spaces          allow whitespace around tokens",
   "  -e, --evaluate        also print the value of each expression",
   "  -l NAME=VALUE, --let NAME=VALUE",
   "                        give a variable a value for --evaluate; may be",
   "                        repeated",
   "  -c, --complete        treat text left over after the expression as an error"]

def help : String := usage ++ String.join (helpLines.map fun line ↦ line ++ "\n")

end ParserCombinators.CommandLine
