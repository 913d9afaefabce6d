/-
CppLint.Tool.Host — the machine the tools run on.

What a check asks of the world outside the program is a parameter:
`execute` is `shell::execute(command, opts, start_dir)` (see
`CppLint.Shell` for the process behind it), `regexMatch` is
`boost::regex_match` with the `icase` flag, `readFile` opens and reads a
file, and `parseXml` is `tinyxml2::XMLDocument::Parse`.

An XML document is given as the accessors of tinyxml2 show it: an element
has a name, the attributes that read as an `int`, what `GetText` returns,
and its child nodes; every other node is `other`.
-/
import CppLint.Shell.Execute
import CppLint.Utils.Text

namespace CppLint.Tool

/-- A node of a tinyxml2 document. -/
inductive XmlNode where
  | element (name : String) (intAttributes : List (String × Int)) (text : Option String)
      (children : List XmlNode)
  | other

/-- The node is an element with the given name. -/
def XmlNode.isElement (name : String) : XmlNode → Bool
  | .element n _ _ _ => n = name
  | .other => false

/-- The elements of one name among a node's children, in document order:
what `FirstChildElement(name)` followed by `NextSiblingElement(name)`
visits. -/
def childElements (name : String) (nodes : List XmlNode) : List XmlNode :=
  nodes.filter (XmlNode.isElement name)

/-- The child nodes of a node. -/
def XmlNode.children : XmlNode → List XmlNode
  | .element _ _ _ children => children
  | .other => []

/-- `QueryIntAttribute(name, &value)`: `value` is left alone unless the
attribute is there and reads as an `int`. -/
def XmlNode.queryIntAttribute (name : String) (value : Int) : XmlNode → Int
  | .element _ attributes _ _ => (attributes.lookup name).getD value
  | .other => value

/-- `GetText()`. -/
def XmlNode.getText : XmlNode → Option String
  | .element _ _ text _ => text
  | .other => none

/-- The machine. -/
structure Host where
  execute : String → List String → String → Except String Shell.Result
  regexMatch : String → String → Except String Bool
  readFile : String → Option String
  parseXml : String → Except String (List XmlNode)

/-- `filter_file`: the file is to be left out. -/
def filterFile (host : Host) (iregex file : String) : Except Fault Bool := do
  let matched ← external (host.regexMatch iregex file)
  return !matched

end CppLint.Tool
