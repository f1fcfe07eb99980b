import TabCompletion.Shell.Request

/-!
# Hooks

A hook is a piece of shell code that, once evaluated, makes the shell ask for completions of one
program. It puts the request into the environment, runs the program with its own output silenced,
and reads the candidates back. A program that cannot answer for itself is answered for by another
executable, which gets the program's description in a file.
-/

namespace TabCompletion

open Text

/-- The variable that names the description of a program which does not answer for itself. -/
def specFileVar : String := "_ARGCOMP_SPEC_FILE"

/-- The executable that answers for a program, and the file with the program's description. -/
structure Deputy where
  specFile : String
  executable : String
deriving DecidableEq, Repr, Inhabited

/-- What a hook is for. -/
structure Hook where
  program : String
  shell : Shell
  deputy : Option Deputy
deriving DecidableEq, Repr, Inhabited

namespace Hook

/-- A name made of the program's, with an underscore for each character that no identifier has. -/
def functionName (h : Hook) : String :=
  "_argcomp_" ++ String.ofList
    (h.program.toList.map fun c => if c.isAlphanum then c else '_')

/-- A word in single quotes for a POSIX shell. -/
def singleQuote (word : String) : String :=
  "'" ++ replaceChar '\'' "'\\''" word ++ "'"

/-- A word in single quotes for PowerShell. -/
def singleQuotePowershell (word : String) : String :=
  "'" ++ replaceChar '\'' "''" word ++ "'"

/-- The assignments in front of a command and the command itself, for a POSIX shell in which
    `caller` stands for the program. -/
def invocation (h : Hook) (caller : String) : String :=
  match h.deputy with
  | some d => specFileVar ++ "=" ++ singleQuote d.specFile ++ " " ++ singleQuote d.executable
  | none => caller

/-- Lines of text, each with its line break. -/
def lines (ls : List String) : String :=
  ls.foldr (fun l rest => l ++ "\n" ++ rest) ""

/-- The first line of a hook. -/
def title (h : Hook) : String :=
  "# argcomp hook for " ++ h.program ++ " (" ++ h.shell.name ++ ")"

/-- The hook for Bash. The shell tells us not to add a space if it can do so itself. -/
def bash (h : Hook) : String :=
  lines [
    h.title,
    h.functionName ++ "() \x7b",
    "    local IFS=$'\\013'",
    "    local SUPPRESS_SPACE=0",
    "    if compopt +o nospace 2> /dev/null; then",
    "        SUPPRESS_SPACE=1",
    "    fi",
    "    COMPREPLY=( $(" ++ RequestVar.line.name ++ "=\"$COMP_LINE\" \\",
    "                  " ++ RequestVar.point.name ++ "=\"$COMP_POINT\" \\",
    "                  " ++ RequestVar.wordbreaks.name ++ "=\"$COMP_WORDBREAKS\" \\",
    "                  " ++ RequestVar.request.name ++ "=1 \\",
    "                  " ++ RequestVar.shell.name ++ "=bash \\",
    "                  " ++ RequestVar.suppressSpace.name ++ "=$SUPPRESS_SPACE \\",
    "                  " ++ h.invocation "\"$1\"" ++ " 8>&1 1>/dev/null) )",
    "    if [[ $? != 0 ]]; then",
    "        unset COMPREPLY",
    "    elif [[ $SUPPRESS_SPACE == 1 ]] && [[ \"$\x7bCOMPREPLY-\x7d\" =~ [=/:]$ ]]; then",
    "        compopt -o nospace",
    "    fi",
    "\x7d",
    "complete -o nospace -o default -o bashdefault -F " ++ h.functionName ++ " "
      ++ singleQuote h.program]

/-- The hook for Zsh, which describes the candidates and adds spaces itself. -/
def zsh (h : Hook) : String :=
  lines [
    h.title,
    h.functionName ++ "() \x7b",
    "    local -a completions suffix",
    "    local point",
    "    () \x7b setopt localoptions nomultibyte; point=$\x7b#LBUFFER\x7d \x7d",
    "    completions=( $\x7b(ps:\\013:)\"$(" ++ RequestVar.line.name ++ "=\"$BUFFER\" \\",
    "        " ++ RequestVar.point.name ++ "=\"$point\" \\",
    "        " ++ RequestVar.request.name ++ "=1 \\",
    "        " ++ RequestVar.shell.name ++ "=zsh \\",
    "        " ++ RequestVar.separator.name ++ "=$'\\013' \\",
    "        " ++ RequestVar.descriptionSeparator.name ++ "=: \\",
    "        " ++ RequestVar.suppressSpace.name ++ "=1 \\",
    "        " ++ h.invocation "\"$\x7bwords[1]\x7d\"" ++ " 8>&1 1>/dev/null)\"\x7d )",
    "    if [[ -n \"$\x7bcompletions[*]\x7d\" ]]; then",
    "        if (( $\x7b#completions\x7d == 1 )) && [[ \"$\x7bcompletions[1]%%:*\x7d\" == *[=/] ]]; then",
    "            suffix=(-S '')",
    "        fi",
    "        _describe " ++ singleQuote h.program ++ " completions -o nosort $suffix",
    "    else",
    "        _files",
    "    fi",
    "\x7d",
    "compdef " ++ h.functionName ++ " " ++ singleQuote h.program]

/-- The hook for Tcsh, a single rule. -/
def tcsh (h : Hook) : String :=
  let program := singleQuote h.program
  lines [
    h.title,
    "complete " ++ program ++ " 'p@*@\x60env " ++ RequestVar.request.name ++ "=1 "
      ++ RequestVar.shell.name ++ "=tcsh " ++ h.invocation program ++ "\x60@' ;"]

/-- The hook for Fish. -/
def fish (h : Hook) : String :=
  let program := singleQuote h.program
  let function := "_" ++ h.functionName
  let specLines := match h.deputy with
    | some d => ["    set -lx " ++ specFileVar ++ " " ++ singleQuote d.specFile]
    | none => []
  let command := match h.deputy with
    | some d => singleQuote d.executable
    | none => program
  lines ([
    h.title,
    "function " ++ function,
    "    set -lx " ++ RequestVar.request.name ++ " 1",
    "    set -lx " ++ RequestVar.shell.name ++ " fish",
    "    set -lx " ++ RequestVar.separator.name ++ " \\n",
    "    set -lx " ++ RequestVar.descriptionSeparator.name ++ " \\t",
    "    set -lx " ++ RequestVar.line.name ++ " (commandline -p)",
    "    set -lx " ++ RequestVar.point.name ++ " (math (commandline -cp | wc -c) - 1)"]
    ++ specLines ++ [
    "    " ++ command ++ " 8>&1 1>/dev/null",
    "end",
    "complete --command " ++ program ++ " -f -a '(" ++ function ++ ")'"])

/-- The hook for PowerShell, which reads the candidates from a file. -/
def powershell (h : Hook) : String :=
  let program := singleQuotePowershell h.program
  let specLines := match h.deputy with
    | some d => ["    $env:" ++ specFileVar ++ " = " ++ singleQuotePowershell d.specFile]
    | none => []
  let command := match h.deputy with
    | some d => singleQuotePowershell d.executable
    | none => program
  let envItem (v : RequestVar) : String := "Env:\\" ++ v.name
  let removed := [.request, .shell, .tempFileName, .line, .point].map envItem
    ++ match h.deputy with
      | some _ => ["Env:\\" ++ specFileVar]
      | none => []
  lines ([
    h.title,
    "Register-ArgumentCompleter -Native -CommandName " ++ program ++ " -ScriptBlock \x7b",
    "    param($wordToComplete, $commandAst, $cursorPosition)",
    "    $completionFile = New-TemporaryFile",
    "    $env:" ++ RequestVar.request.name ++ " = 1",
    "    $env:" ++ RequestVar.shell.name ++ " = \"powershell\"",
    "    $env:" ++ RequestVar.tempFileName.name ++ " = $completionFile",
    "    $line = $commandAst.ToString()",
    "    $offset = [Math]::Max(0, [Math]::Min($cursorPosition - $commandAst.Extent.StartOffset, "
      ++ "$line.Length))",
    "    $env:" ++ RequestVar.line.name ++ " = $line",
    "    $env:" ++ RequestVar.point.name
      ++ " = [System.Text.Encoding]::UTF8.GetByteCount($line.Substring(0, $offset))"]
    ++ specLines ++ [
    "    & " ++ command ++ " 2>&1 | Out-Null",
    "    Get-Content $completionFile | ForEach-Object \x7b",
    "        [System.Management.Automation.CompletionResult]::new($_, $_, \"ParameterValue\", $_)",
    "    \x7d",
    "    Remove-Item $completionFile, " ++ joinWith ", " removed,
    "\x7d"])

/-- The text of the hook. -/
def text (h : Hook) : String :=
  match h.shell with
  | .bash => h.bash
  | .zsh => h.zsh
  | .tcsh => h.tcsh
  | .fish => h.fish
  | .powershell => h.powershell

end Hook

end TabCompletion
