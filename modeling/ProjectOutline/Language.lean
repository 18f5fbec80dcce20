import ProjectOutline.Path

/-!
The languages an outline covers, the grammars that read them, and the choice of a grammar by the
extension of a file.
-/

namespace ProjectOutline

/-- Language family whose declaration rules apply to a file. -/
inductive Language where
  | python
  | javascript
deriving DecidableEq, Repr, Inhabited

def Language.name : Language → String
  | python => "python"
  | javascript => "javascript"

def Language.ofName? : String → Option Language
  | "python" => some .python
  | "javascript" => some .javascript
  | _ => none

inductive Grammar where
  | python
  | typescript
  /-- TypeScript with embedded markup; plain JavaScript is read by it as well. -/
  | tsx
deriving DecidableEq, Repr, Inhabited

namespace Grammar

def name : Grammar → String
  | python => "python"
  | typescript => "typescript"
  | tsx => "tsx"

def language : Grammar → Language
  | python => .python
  | typescript | tsx => .javascript

/-- The grammar for an extension in lower case. -/
def ofExtension? : String → Option Grammar
  | "py" | "pyi" => some .python
  | "ts" | "mts" | "cts" => some .typescript
  | "tsx" | "js" | "jsx" | "mjs" | "cjs" => some .tsx
  | _ => none

/-- The grammar for a path, by its extension in any mix of ASCII case. -/
def ofPath? (p : Path) : Option Grammar :=
  p.extension?.bind fun e => ofExtension? (String.ofList (e.toList.map Char.toLower))

end Grammar

/-- Ecosystem of a package, told by its manifest. -/
inductive PackageKind where
  | js
  | py
deriving DecidableEq, Repr, Inhabited

def PackageKind.name : PackageKind → String
  | js => "js"
  | py => "py"

def PackageKind.ofName? : String → Option PackageKind
  | "js" => some .js
  | "py" => some .py
  | _ => none

def PackageKind.serves : PackageKind → Language → Bool
  | js, .javascript => true
  | py, .python => true
  | _, _ => false

end ProjectOutline
