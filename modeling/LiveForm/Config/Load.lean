import LiveForm.Config.Basic
import LiveForm.Files.Document

/-!
# Configuration files

A configuration is read in layers: the built-in defaults, a file of defaults that has to exist, and
a local file that may be missing.

* `Config.readFile`: the configuration in one file.
* `Config.load`: the layers merged.
-/

namespace LiveForm.Config

/-- Why no configuration is loaded. -/
inductive LoadError where
  | missing (path : Path)
  | format (suffix : String)
  | file (cause : FileError)
  | text (cause : Format.Unreadable)
  /-- The file does not hold a mapping. -/
  | root (kind : Value.Kind)
  | conflict (cause : MergeConflict)

/-- The text of the error, when it has one. -/
def LoadError.message? : LoadError → Option String
  | .missing p => some ("Arquivo de configuração não encontrado: " ++ p.text)
  | .format suffix => some ("Formato não suportado: " ++ suffix)
  | .root k => some ("Config root deve ser dict, recebido: " ++ k.name)
  | .conflict c => c.message?
  | .file _ | .text _ => none

/-- The configuration in a file. One that holds nothing is empty. -/
def readFile (yaml : Yaml.Library) (fs : Files) (p : Path) : Except LoadError Value := do
  if !fs.has p then throw (.missing p)
  let some format := Format.ofSuffix? p.lowerSuffix | throw (.format p.suffix)
  let s ← (fs.readText p).mapError .file
  match ← (format.parse yaml s).mapError .text with
  | .null => .ok (.map [])
  | .map entries => .ok (.map entries)
  | v => throw (.root v.kind)

/-- The configuration of a file of defaults and perhaps a local file, which may be missing. -/
def load (yaml : Yaml.Library) (fs : Files) (base : Path) (overlay : Option Path) :
    Except LoadError Value := do
  let config ← (resolve (← readFile yaml fs base)).mapError .conflict
  match overlay with
  | none => .ok config
  | some p =>
    if fs.has p then (deepMerge config (← readFile yaml fs p)).mapError .conflict
    else .ok config

end LiveForm.Config
