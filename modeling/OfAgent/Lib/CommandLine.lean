import Mathlib.Data.List.Basic
import Mathlib.Logic.Function.Basic

/-!
# Command lines

The words that a shell makes of a command, and the options that a program reads from them in the
manner of `optparse`. Options with a value store it under a key; any other option ends the program.

* `words`: the words of a command without quotes or other special characters.
* `Parser`, `Parser.parseArgs`: the options of a program, and the values and further arguments that
  it reads.
* `words_intercalate`, `parseArgs_flags`: words and values come back from a command that is printed.
-/

namespace CommandLine

/-- A word of a command. -/
abbrev Word := List Char

/-- The words of a command. Blanks separate them, several blanks as one does. -/
def words (command : List Char) : List Word := (command.splitOn ' ').filter (· ≠ [])

/-- What an option does. -/
inductive Effect (κ : Type*)
  /-- It takes a value. -/
  | store (key : κ)
  /-- It ends the program, as `--help` and `--version` do. -/
  | exit

/-- The options of a program: the letters of the short ones and the names of the long ones, which
begin with two dashes. -/
structure Parser (κ : Type*) where
  /-- The short options. -/
  shortOpts : List (Char × Effect κ)
  /-- The long options. -/
  longOpts : List (Word × Effect κ)

/-- What a word is when the words in front of it have been read. -/
inductive Token (κ : Type*)
  /-- No option. -/
  | argument
  /-- An option whose value is the next word. -/
  | awaits (key : κ)
  /-- An option with its value. -/
  | valued (key : κ) (value : Word)
  /-- An option that ends the program, or that there is not. -/
  | ends

namespace Parser

variable {κ : Type*} (p : Parser κ)

/-- `_match_abbrev`: the option with the name, or else the only one whose name begins with it. -/
def matchAbbrev (name : Word) : Option (Effect κ) :=
  match p.longOpts.lookup name with
  | some effect => some effect
  | none => match p.longOpts.filter fun o => name.isPrefixOf o.1 with
    | [o] => some o.2
    | _ => none

/-- `_process_long_opt`: a value may follow the name behind `=`. -/
def longOpt (arg : Word) : Token κ :=
  match p.matchAbbrev (arg.takeWhile (· ≠ '=')) with
  | some (.store key) =>
    if '=' ∈ arg then .valued key ((arg.dropWhile (· ≠ '=')).drop 1) else .awaits key
  | _ => .ends

/-- `_process_short_opts`: a value may follow the letter. As every option takes a value or ends the
program, the word has no second option. -/
def shortOpt (letter : Char) (rest : Word) : Token κ :=
  match p.shortOpts.lookup letter with
  | some (.store key) => if rest = [] then .awaits key else .valued key rest
  | _ => .ends

/-- How `_process_args` tells options from other arguments. A single dash is none. -/
def token : Word → Token κ
  | '-' :: '-' :: rest => p.longOpt ('-' :: '-' :: rest)
  | '-' :: letter :: rest => p.shortOpt letter rest
  | _ => .argument

variable [DecidableEq κ]

/-- `_process_args`: the values of the options and the other arguments. Without a result, the
program ends. Behind two dashes there are no more options. -/
def parseArgs : (κ → Word) → List Word → Option ((κ → Word) × List Word)
  | values, [] => some (values, [])
  | values, arg :: rargs =>
      if arg = ['-', '-'] then some (values, rargs)
      else match p.token arg with
        | .argument => (parseArgs values rargs).map (Prod.map id (arg :: ·))
        | .valued key value => parseArgs (Function.update values key value) rargs
        | .awaits key => match rargs with
          | [] => none
          | value :: rargs => parseArgs (Function.update values key value) rargs
        | .ends => none

end Parser

/-! ### Commands that are printed -/

/-- Words come back from a command that has them with blanks between them. -/
theorem words_intercalate {fields : List Word} (hne : fields ≠ [])
    (h : ∀ f ∈ fields, f ≠ [] ∧ ' ' ∉ f) : words ([' '].intercalate fields) = fields := by
  rw [words, List.splitOn_intercalate ' ' (fun f hf => (h f hf).2) hne]
  exact List.filter_eq_self.2 fun f hf => decide_eq_true (h f hf).1

namespace Parser

variable {κ : Type*} {p : Parser κ} [DecidableEq κ]

/-- A word that does not begin with a dash is an argument. -/
theorem parseArgs_argument {arg : Word} (h : arg.head? ≠ some '-') (values : κ → Word)
    (rargs : List Word) :
    p.parseArgs values (arg :: rargs) =
      (p.parseArgs values rargs).map (Prod.map id (arg :: ·)) := by
  have hdashes : arg ≠ ['-', '-'] := by
    rintro rfl
    exact h rfl
  have hargument : p.token arg = .argument := by
    unfold token
    split
    next => exact absurd rfl h
    next => exact absurd rfl h
    next => rfl
  rw [parseArgs, if_neg hdashes, hargument]

/-- A letter and the word behind it are an option with its value, whatever the word is. -/
theorem parseArgs_flag {letter : Char} {key : κ} (hletter : letter ≠ '-')
    (hlookup : p.shortOpts.lookup letter = some (.store key)) (values : κ → Word) (value : Word)
    (rargs : List Word) :
    p.parseArgs values (['-', letter] :: value :: rargs) =
      p.parseArgs (Function.update values key value) rargs := by
  have hdashes : (['-', letter] : Word) ≠ ['-', '-'] := fun heq =>
    hletter (List.cons.inj (List.cons.inj heq).2).1
  have htoken : p.token ['-', letter] = .awaits key := by
    unfold token
    split
    next heq => exact absurd (List.cons.inj (List.cons.inj heq).2).1 hletter
    next heq =>
      cases heq
      rw [shortOpt, hlookup]
      rfl
    next hother => exact absurd rfl (hother _ _)
  rw [parseArgs, if_neg hdashes, htoken]

/-- Letters with the words behind them set the values one after the other. -/
theorem parseArgs_flags {letter : κ → Char} (hletter : ∀ key, letter key ≠ '-')
    (hlookup : ∀ key, p.shortOpts.lookup (letter key) = some (.store key))
    (opts : List (κ × Word)) (values : κ → Word) :
    p.parseArgs values (opts.flatMap fun o => [['-', letter o.1], o.2]) =
      some (opts.foldl (fun values o => Function.update values o.1 o.2) values, []) := by
  induction opts generalizing values with
  | nil => rfl
  | cons o opts ih =>
    calc p.parseArgs values ((o :: opts).flatMap fun o => [['-', letter o.1], o.2])
        = p.parseArgs (Function.update values o.1 o.2)
            (opts.flatMap fun o => [['-', letter o.1], o.2]) :=
          parseArgs_flag (hletter o.1) (hlookup o.1) values o.2 _
      _ = _ := ih _

end Parser

end CommandLine
