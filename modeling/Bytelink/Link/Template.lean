import Bytelink.Text.Lines
import Bytelink.Text.Search

/-!
# Class templates

A template is the class text that precedes the bodies of all fragments. It mentions the class under
a placeholder name at least once.
-/
namespace Bytelink

/-- The name that stands for the class being built. -/
def placeholder : Text := ['P', 'r', 'o', 'g']

/-- `t` with the placeholder replaced by the name of a class. -/
def nameClass (className t : Text) : Text := Text.replaceAll placeholder className t

/-- Class text with a place for the class name. -/
structure Template where
  text : Text
  deriving DecidableEq, Repr

namespace Template

/-- The header of a class with a constructor and an entry method. -/
def standard : Template :=
  ⟨Text.ofLines
    [".class public Prog",
      ".super java/lang/Object",
      "",
      ".method public <init>()V",
      "    aload_0",
      "    invokenonvirtual java/lang/Object/<init>()V",
      "    return",
      ".end method",
      "",
      ".method public static main([Ljava/lang/String;)V",
      "    .limit stack 1",
      "    .limit locals 1",
      "    invokestatic Prog/main()I",
      "    pop",
      "    return",
      ".end method",
      ""]⟩

def ofText? (text : Text) : Option Template :=
  if Text.includes text placeholder then some ⟨text⟩ else none

def instantiate (t : Template) (className : Text) : Text := nameClass className t.text

end Template
end Bytelink
