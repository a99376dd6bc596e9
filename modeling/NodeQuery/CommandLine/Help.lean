/-!
The usage and the help of the command.
-/
namespace NodeQuery.CommandLine

/-- The name of the command. -/
def programName : String := "tap-query"

/-- The name and the version of the command. -/
def versionText : String := programName ++ " 0.1.0\n"

/-- How the command is called. -/
def usage : String :=
"usage: tap-query [-h] [-V] [-P TREE_PATH] [--timeline MIN_TIME MAX_TIME]
                 [--count-attributes] [--data-nodes] [--config CONFIG_FILE]
                 [--fuzzy-threshold SCORE] [--ignore-case-wildcard]
                 [--color \x7bauto,always,never\x7d] [--debug] [--setup]
                 [TREE] [QUERY]
"

/-- What the arguments of the command mean. -/
def description : String :=
"
Select nodes of a JSON node tree with a query expression.

positional arguments:
  TREE                  JSON file describing the node tree
  QUERY                 query expression, e.g. \"name == w'*.jpg' and data ==
                        t'Canon'\"

options:
  -h, --help            show this help message and exit
  -V, --version         show program's version number and exit
  -P TREE_PATH, --path TREE_PATH
                        only consider nodes below this tree path
  --timeline MIN_TIME MAX_TIME
                        list datetime attributes between two ISO 8601 times
  --count-attributes    print the number of attributes in the tree
  --data-nodes          list the nodes that have content
  --config CONFIG_FILE  configuration file (default: searched in standard
                        locations)
  --fuzzy-threshold SCORE
                        minimum fuzzy match score between 0 and 1 (default:
                        0.8)
  --ignore-case-wildcard
                        match wildcard patterns case-insensitively
  --color \x7bauto,always,never\x7d
                        colorize output (default: auto)
  --debug               enable debug logging
  --setup               store the provided matching options in a configuration
                        file

Connectives 'or', 'and' and 'and not' have equal precedence and are applied
left to right; use parentheses to group.
"

/-- The help of the command. -/
def help : String := usage ++ description

/-- What is written when the arguments cannot be understood. -/
def usageError (detail : String) : String :=
  usage ++ programName ++ ": error: " ++ detail ++ "\n"

end NodeQuery.CommandLine
