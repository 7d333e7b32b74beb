import Mathlib
import OspabOs.Apps.Coreutils

/-!
# Running a program from the shell

`shell::execute_command` splits its line at whitespace and matches the
first word against the built-in commands; any other word is looked up as
a path (`resolve_command_path`: the word itself if it holds a `/`, else
`/bin/<word>`) and run by `exec_path`. `exec_path` reads the file through
the VFS service: a `#!` file and any other file that is UTF-8 text is a
script, whose lines `run_script` hands back to `execute_command` one by
one; an ELF image is loaded and entered in user mode. The built-in
`ospabshell` runs `/bin/ospabshell` the same way.

So `exec_path → run_script → execute_command → exec_path` is a recursion
whose depth is decided by what the files say. The model counts it with
fuel: `execPath env fuel` may nest `fuel` calls of `exec_path`, and is
`none` when a run would nest deeper. A file `/bin/x` that holds the text
`x` makes the command `x` run itself forever, whatever the built-in
commands do and however deep the recursion is allowed to go
(`execute_command_loops_on_self_script`); one WriteFile, which `cp`,
`mv`, Grape and the service itself can issue, is enough to make it.

What each built-in command does (printing, the user database, the
timer, Grape's keys) is the parameter `Env.builtin`, by its effect on the
file system; whether an ELF image gets to user mode is `Env.enterUser`.
-/

namespace OspabOs.Shell

open OspabOs.Vfs OspabOs.Coreutils

/-- How a command ends: it returns to the shell, or the CPU is in user
mode and the shell's frames are gone. -/
inductive Ending where
  | returned
  | userMode
  deriving DecidableEq, Repr

/-- What the recursion does not decide: the effect of each built-in
command other than `ospabshell` on the file system, given its arguments;
and what `load_user_elf` and the scheduler make of an ELF image, where
`Ok` is the jump to user mode. -/
structure Env where
  builtin : List Char → List (List Char) → Option VfsState → Option VfsState
  enterUser : List UInt8 → Except (List Char) Unit

/-- The words `execute_command` matches before its default arm, but for
`ospabshell`. -/
def builtins : List (List Char) :=
  ["help", "clear", "echo", "uptime", "version", "history", "ls", "cd", "pwd", "ps", "free",
    "date", "uname", "whoami", "login", "logout", "useradd", "users", "cat", "mkdir", "cp", "mv",
    "grape", "tomato", "doom", "sudo", "top", "df", "du", "kill", "pkill", "chmod", "chown",
    "grep", "find", "wc", "head", "tail", "sort", "uniq", "tar", "wget", "ping", "ifconfig",
    "dmesg", "shutdown", "reboot"].map String.toList

/-- `resolve_command_path`. -/
def resolveCommandPath (cmd : List Char) : List Char :=
  if '/' ∈ cmd then cmd else "/bin/".toList ++ cmd

/-- What `execute_command` makes of `exec_path`'s result: an error is
printed, and the command returns. -/
def Ending.ofResult : Except (List Char) Ending → Ending
  | .ok ending => ending
  | .error _ => .returned

/-- `run_script` over the lines of a script, with `execute` for
`execute_command`: blank lines and `#` comments are skipped, and a line
that enters user mode ends the script. -/
def runScriptWith (execute : List Char → Option VfsState → Option (Ending × Option VfsState)) :
    List (List Char) → Option VfsState → Option (Ending × Option VfsState)
  | [], vfs => some (.returned, vfs)
  | line :: rest, vfs =>
    if (Text.trim line).isEmpty ∨ (Text.trim line).head? = some '#' then runScriptWith execute rest vfs
    else
      match execute (Text.trim line) vfs with
      | some (.returned, vfs) => runScriptWith execute rest vfs
      | other => other

/-- `execute_command`, with `exec` for `exec_path`. -/
def executeCommandWith (env : Env)
    (exec : List Char → Option VfsState → Option (Except (List Char) Ending × Option VfsState))
    (cmd : List Char) (vfs : Option VfsState) : Option (Ending × Option VfsState) :=
  match Text.splitWhitespace cmd with
  | [] => some (.returned, vfs)
  | name :: args =>
    if name = "ospabshell".toList then
      (exec "/bin/ospabshell".toList vfs).map fun (result, vfs) => (Ending.ofResult result, vfs)
    else if builtins.contains name then some (.returned, env.builtin name args vfs)
    else (exec (resolveCommandPath name) vfs).map fun (result, vfs) => (Ending.ofResult result, vfs)

/-- `exec_path`, nesting at most `fuel` calls of itself. -/
def execPath (env : Env) : Nat → List Char → Option VfsState → Option (Except (List Char) Ending × Option VfsState)
  | 0, _, _ => none
  | fuel + 1, path, vfs =>
    match processRequest vfs (.readFile path) with
    | (.fileData data, vfs) =>
      -- `data.starts_with(b"#!")`
      if data.take 2 = [0x23, 0x21] then
        match Text.fromUtf8 data with
        | some text =>
          (runScriptWith (executeCommandWith env (execPath env fuel)) (Text.lines text) vfs).map
            fun (ending, vfs) => (.ok ending, vfs)
        | none => some (.error "invalid script encoding".toList, vfs)
      -- `data.starts_with(b"\x7FELF")`
      else if data.take 4 = [0x7F, 0x45, 0x4C, 0x46] then
        match env.enterUser data with
        | .ok () => some (.ok .userMode, vfs)
        | .error msg => some (.error msg, vfs)
      else
        match Text.fromUtf8 data with
        | some text =>
          (runScriptWith (executeCommandWith env (execPath env fuel)) (Text.lines text) vfs).map
            fun (ending, vfs) => (.ok ending, vfs)
        | none => some (.error "unknown file format".toList, vfs)
    | (.error _, vfs) => some (.error "file not found".toList, vfs)
    | (_, vfs) => some (.error "unexpected response".toList, vfs)

/-- `execute_command`, nesting at most `fuel` calls of `exec_path`. -/
def executeCommand (env : Env) (fuel : Nat) (cmd : List Char) (vfs : Option VfsState) :
    Option (Ending × Option VfsState) :=
  executeCommandWith env (execPath env fuel) cmd vfs

/-! ## What each step does -/

section Steps

variable (env : Env)

/-- A word that is not built in is run from its path. -/
theorem executeCommandWith_external
    (exec : List Char → Option VfsState → Option (Except (List Char) Ending × Option VfsState))
    {cmd name : List Char} {args : List (List Char)} (words : Text.splitWhitespace cmd = name :: args)
    (notShell : name ≠ "ospabshell".toList) (notBuiltin : name ∉ builtins) (vfs : Option VfsState) :
    executeCommandWith env exec cmd vfs =
      (exec (resolveCommandPath name) vfs).map fun (result, vfs) => (Ending.ofResult result, vfs) := by
  have notListed : builtins.contains name = false := by
    rw [Bool.eq_false_iff, Ne, List.contains_iff_mem]
    exact notBuiltin
  unfold executeCommandWith
  rw [words]
  simp only [notShell, notListed, Bool.false_eq_true, if_false]

/-- `exec_path` of a file that is UTF-8 text, neither `#!` nor ELF, runs
its lines as a script. -/
theorem execPath_of_text {s : VfsState} {path : List Char} {data : List UInt8} {text : List Char}
    (read : readFile s path = .fileData data) (notShebang : data.take 2 ≠ [0x23, 0x21])
    (notElf : data.take 4 ≠ [0x7F, 0x45, 0x4C, 0x46]) (utf8 : Text.fromUtf8 data = some text)
    (fuel : Nat) :
    execPath env (fuel + 1) path (some s) =
      (runScriptWith (executeCommandWith env (execPath env fuel)) (Text.lines text) (some s)).map
        fun (ending, vfs) => (.ok ending, vfs) := by
  have request : processRequest (some s) (.readFile path) = (.fileData data, some s) := by
    show ((process s (.readFile path)).1, some (process s (.readFile path)).2) = _
    simp only [process, read]
  simp only [execPath, request, notShebang, notElf, if_false, utf8]

/-- A script stops where a line's command does not come back. -/
theorem runScriptWith_of_stuck (execute : List Char → Option VfsState → Option (Ending × Option VfsState))
    {line : List Char} (rest : List (List Char)) {vfs : Option VfsState}
    (command : ¬ ((Text.trim line).isEmpty ∨ (Text.trim line).head? = some '#'))
    (stuck : execute (Text.trim line) vfs = none) :
    runScriptWith execute (line :: rest) vfs = none := by
  unfold runScriptWith
  rw [if_neg command, stuck]

end Steps

/-! ## A script that runs itself -/

/-- Whatever the built-in commands do and however deep `exec_path` may
nest: in every state where `/bin/x` holds the text `x`, the command `x`
never returns. `x` is no built-in, so it runs `/bin/x`, whose one line is
`x` again. -/
theorem execute_command_loops_on_self_script (env : Env) (s : VfsState)
    (self : readFile s "/bin/x".toList = .fileData (Text.encode "x".toList)) (fuel : Nat) :
    executeCommand env fuel "x".toList (some s) = none := by
  have words : Text.splitWhitespace "x".toList = ["x".toList] := by decide
  have external := fun exec => executeCommandWith_external env exec words (by decide) (by decide) (some s)
  have path : resolveCommandPath "x".toList = "/bin/x".toList := by decide
  have text : Text.fromUtf8 (Text.encode "x".toList) = some "x".toList := Text.fromUtf8_encode _
  have line : ¬ ((Text.trim "x".toList).isEmpty ∨ (Text.trim "x".toList).head? = some '#') := by decide
  have trimmed : Text.trim "x".toList = "x".toList := by decide
  -- on the fuel: each level of `exec_path` meets the same command in the same state
  induction fuel with
  | zero =>
    unfold executeCommand
    rw [external, path]
    rfl
  | succ fuel ih =>
    unfold executeCommand at ih ⊢
    rw [external, path, execPath_of_text env self (by decide) (by decide) text]
    have lines : Text.lines "x".toList = ["x".toList] := by decide
    rw [lines, runScriptWith_of_stuck _ [] line (by rw [trimmed]; exact ih)]
    rfl

theorem execute_command_loops_after_write :
    readFile (writeFile (VfsState.init []) "/bin/x".toList (Text.encode "x".toList)).2 "/bin/x".toList =
        .fileData (Text.encode "x".toList) ∧
      ∀ env fuel, executeCommand env fuel "x".toList
        (some (writeFile (VfsState.init []) "/bin/x".toList (Text.encode "x".toList)).2) = none :=
  have written := readFile_writeFile (VfsState.init []) "/bin/x".toList (Text.encode "x".toList) rfl
  ⟨written, fun env fuel => execute_command_loops_on_self_script env _ written fuel⟩

end OspabOs.Shell
