import CodeAtlas.Path
import CodeAtlas.Text.Casing

/-!
What an extension says about a file: its language, whether it is analysed at all, and whether it
counts as code. Extensions are compared in small letters.
-/
namespace CodeAtlas.Language

def ofExtension : List (String × String) := [
  (".ts", "TypeScript"), (".tsx", "TypeScript"), (".js", "JavaScript"), (".jsx", "JavaScript"),
  (".py", "Python"), (".java", "Java"), (".cs", "C#"), (".cpp", "C++"), (".c", "C"),
  (".php", "PHP"), (".rb", "Ruby"), (".go", "Go"), (".rs", "Rust"), (".swift", "Swift"),
  (".kt", "Kotlin"), (".html", "HTML"), (".css", "CSS"), (".scss", "SCSS"), (".sass", "Sass"),
  (".less", "Less"), (".json", "JSON"), (".yaml", "YAML"), (".yml", "YAML"), (".xml", "XML"),
  (".md", "Markdown")]

def supported : List String := [
  ".ts", ".tsx", ".js", ".jsx", ".vue", ".svelte", ".py", ".java", ".cs", ".cpp", ".c", ".h",
  ".php", ".rb", ".go", ".rs", ".swift", ".kt", ".html", ".css", ".scss", ".sass", ".less",
  ".json", ".yaml", ".yml", ".xml", ".md"]

def code : List String := [
  ".ts", ".tsx", ".js", ".jsx", ".py", ".java", ".cs", ".cpp", ".c", ".php", ".rb", ".go", ".rs",
  ".swift", ".kt"]

def nameOf (extension : String) : String :=
  (ofExtension.lookup (Text.lower extension)).getD "Unknown"

/-- Files without extension are read as well. -/
def isAnalyzable (path : String) : Bool :=
  let extension := Path.extension path
  extension == "" || supported.contains (Text.lower extension)

def isCode (path : String) : Bool := code.contains (Text.lower (Path.extension path))

end CodeAtlas.Language
