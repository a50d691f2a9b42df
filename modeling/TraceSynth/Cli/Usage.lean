import TraceSynth.Cli.Command

/-!
# Usage and help text

A command's usage text gives its synopsis, its subcommands with their one-line summaries, its
own flags and the flags it inherits, each part only when it has something to show. Its help
text is its long description, or else its summary, followed by the usage text.

The help and version switches appear among a command's flags only once they are known: a
command that is run, or whose help is asked for, knows them; the root whose usage follows an
unknown help topic does not.
-/

namespace TraceSynth

namespace Cli

/-- The least width of the name column of a subcommand listing. -/
def namePadding : Nat := 11

/-- A text padded with spaces on the right to a width. -/
def padRight (s : String) (w : Nat) : String :=
  s ++ String.ofList (List.replicate (w - s.length) ' ')

/-- Whether a command has subcommands that listings offer. -/
def Command.listsSubcommands (c : Command) : Bool := c.subcommands.any (·.available)

/-- Commands in order of their names. -/
def sortCommands (cs : List Command) : List Command := cs.mergeSort fun a b => !(b.name < a.name)

namespace Lineage

/-- The synopsis of a command: its parents' path and its own synopsis, with `[flags]`. -/
def useLine (l : Lineage) : String :=
  let c := l.command
  let line := if l.isRoot then c.use else Lineage.path l.dropLast ++ " " ++ c.use
  if !c.flagsInUse || (line.splitOn "[flags]").length > 1 then line else line ++ " [flags]"

/-- The usage text of a command; `switches` says whether its help and version switches are
known. -/
def usage (l : Lineage) (switches : Bool) : String :=
  let c := l.command
  let own := c.flags ++ c.persistent ++ (if switches then l.switches else [])
  let inherited := l.inherited
  let width := max namePadding ((c.subcommands.map (·.name.length)).foldl max 0)
  let listed := (sortCommands c.subcommands).filter fun s => s.available || s.name == "help"
  let subs := c.listsSubcommands
  "Usage:" ++
    (if c.runnable then "\n  " ++ l.useLine else "") ++
    (if subs then "\n  " ++ l.path ++ " [command]" else "") ++
    (if subs then
      "\n\nAvailable Commands:" ++
        String.join (listed.map fun s => "\n  " ++ padRight s.name width ++ " " ++ s.short)
     else "") ++
    (if own.isEmpty then "" else "\n\nFlags:\n" ++ flagTable own) ++
    (if inherited.isEmpty then "" else "\n\nGlobal Flags:\n" ++ flagTable inherited) ++
    (if subs then
      "\n\nUse \"" ++ l.path ++ " [command] --help\" for more information about a command."
     else "") ++ "\n"

/-- The help text of a command whose switches are known. -/
def help (l : Lineage) : String :=
  let c := l.command
  let text := if c.long.isEmpty then c.short else c.long
  (if text.isEmpty then "" else text.trimAsciiEnd.toString ++ "\n\n") ++
    (if c.runnable || !c.subcommands.isEmpty then l.usage true else "")

/-- The version text of a command. -/
def versionText (l : Lineage) : String := l.command.name ++ " version " ++ l.command.version ++ "\n"

end Lineage

end Cli

end TraceSynth
