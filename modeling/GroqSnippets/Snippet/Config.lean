/-
Settings for snippets.

A configuration says how a query is written out: the output format, the helper that wraps it and
the module the helper comes from, a directory of templates and a comment header.  Every setting has
a default.

Settings come from outside and may be of any kind.  Only texts are taken, and nothing at all is an
acceptable answer for the directory and the header; everything that does not fit is reported at
once, in the order of the settings.
-/
import GroqSnippets.Text.Basic

namespace GroqSnippets

/-- How snippets are written. -/
structure Config where
  /-- The output format: `ts`, `js`, or anything else for the bare query. -/
  outputFormat : Text := "js".toList
  helperName : Text := "defineQuery".toList
  helperModule : Text := "sanity".toList
  templateDir : Option Text := none
  /-- A comment header for every snippet. -/
  header : Option Text := none
deriving DecidableEq, Repr

def Config.fileExtension (config : Config) : Text :=
  if config.outputFormat == "ts".toList then ".ts".toList
  else if config.outputFormat == "js".toList then ".js".toList
  else ".groq".toList

/-! ### Settings from outside

A setting that is not given falls back to its default, while one that is given as nothing at all is
a choice, and only an optional setting may be left empty that way.
-/

/-- What a setting may be given as. -/
inductive Setting where
  | text (value : Text)
  /-- Nothing at all. -/
  | null
  | other
deriving DecidableEq, Repr

inductive SettingName where
  | outputFormat
  | helperName
  | helperModule
  | templateDir
  | header
deriving DecidableEq, Repr

namespace SettingName

/-- The settings, in order. -/
def all : List SettingName :=
  [outputFormat, helperName, helperModule, templateDir, header]

/-- The key that a setting goes by. -/
def key : SettingName → Text
  | outputFormat => "output_format".toList
  | helperName => "helper_name".toList
  | helperModule => "helper_module".toList
  | templateDir => "template_dir".toList
  | header => "header".toList

/-- Whether a setting may be nothing at all. -/
def isOptional : SettingName → Bool
  | templateDir | header => true
  | _ => false

def admits (name : SettingName) : Setting → Bool
  | .text _ => true
  | .null => name.isOptional
  | .other => false

end SettingName

namespace Setting

/-- The text that is given, or a default. -/
def textD (default : Text) : Option Setting → Text
  | some (.text value) => value
  | _ => default

/-- The text that is given, if there is one. -/
def text? : Option Setting → Option Text
  | some (.text value) => some value
  | _ => none

end Setting

/-- The configuration with the given settings, or the settings that do not fit. -/
def Config.ofSettings (given : SettingName → Option Setting) : Except (List SettingName) Config :=
  let default : Config := {}
  match SettingName.all.filter fun name => !(given name).all name.admits with
  | [] =>
    .ok
      { outputFormat := Setting.textD default.outputFormat (given .outputFormat)
        helperName := Setting.textD default.helperName (given .helperName)
        helperModule := Setting.textD default.helperModule (given .helperModule)
        templateDir := Setting.text? (given .templateDir)
        header := Setting.text? (given .header) }
  | misfits => .error misfits

end GroqSnippets
