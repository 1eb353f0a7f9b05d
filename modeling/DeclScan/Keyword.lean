import DeclScan.Language

/-!
# Reserved words

A word is reserved per language: `class` is an ordinary name in C, and
`_Bool` is one in C++.  Two spellings may stand for one keyword, each in its
own language.
-/

set_option autoImplicit false

namespace DeclScan

inductive Keyword where
  | kwAlignas
  | kwAlignof
  | kwAuto
  | kwBool
  | kwBreak
  | kwCase
  | kwCatch
  | kwChar
  | kwChar16T
  | kwChar32T
  | kwClass
  | kwConst
  | kwConsteval
  | kwConstexpr
  | kwConstinit
  | kwConstCast
  | kwContinue
  | kwDecltype
  | kwDefault
  | kwDelete
  | kwDo
  | kwDouble
  | kwDynamicCast
  | kwElse
  | kwEnum
  | kwExplicit
  | kwExport
  | kwExtern
  | kwFalse
  | kwFloat
  | kwFor
  | kwFriend
  | kwGoto
  | kwIf
  | kwInline
  | kwInt
  | kwLong
  | kwMutable
  | kwNamespace
  | kwNew
  | kwNoexcept
  | kwNullptr
  | kwOperator
  | kwPrivate
  | kwProtected
  | kwPublic
  | kwRegister
  | kwReinterpretCast
  | kwRestrict
  | kwReturn
  | kwShort
  | kwSigned
  | kwSizeof
  | kwStatic
  | kwStaticAssert
  | kwStaticCast
  | kwStruct
  | kwSwitch
  | kwTemplate
  | kwThis
  | kwThreadLocal
  | kwThrow
  | kwTrue
  | kwTry
  | kwTypedef
  | kwTypeid
  | kwTypename
  | kwUnion
  | kwUnsigned
  | kwUsing
  | kwVirtual
  | kwVoid
  | kwVolatile
  | kwWcharT
  | kwWhile
deriving DecidableEq, Repr

structure ReservedWord where
  spelling : String
  keyword : Keyword
  languages : List Language

/-- Every reserved spelling.  No spelling occurs twice. -/
def reservedWords : List ReservedWord := [
  ⟨"alignas", .kwAlignas, [.cpp]⟩,
  ⟨"alignof", .kwAlignof, [.cpp]⟩,
  ⟨"auto", .kwAuto, [.c, .cpp]⟩,
  ⟨"bool", .kwBool, [.cpp]⟩,
  ⟨"_Bool", .kwBool, [.c]⟩,
  ⟨"break", .kwBreak, [.c, .cpp]⟩,
  ⟨"case", .kwCase, [.c, .cpp]⟩,
  ⟨"catch", .kwCatch, [.cpp]⟩,
  ⟨"char", .kwChar, [.c, .cpp]⟩,
  ⟨"char16_t", .kwChar16T, [.cpp]⟩,
  ⟨"char32_t", .kwChar32T, [.cpp]⟩,
  ⟨"class", .kwClass, [.cpp]⟩,
  ⟨"const", .kwConst, [.c, .cpp]⟩,
  ⟨"consteval", .kwConsteval, [.cpp]⟩,
  ⟨"constexpr", .kwConstexpr, [.cpp]⟩,
  ⟨"constinit", .kwConstinit, [.cpp]⟩,
  ⟨"const_cast", .kwConstCast, [.cpp]⟩,
  ⟨"continue", .kwContinue, [.c, .cpp]⟩,
  ⟨"decltype", .kwDecltype, [.cpp]⟩,
  ⟨"default", .kwDefault, [.c, .cpp]⟩,
  ⟨"delete", .kwDelete, [.cpp]⟩,
  ⟨"do", .kwDo, [.c, .cpp]⟩,
  ⟨"double", .kwDouble, [.c, .cpp]⟩,
  ⟨"dynamic_cast", .kwDynamicCast, [.cpp]⟩,
  ⟨"else", .kwElse, [.c, .cpp]⟩,
  ⟨"enum", .kwEnum, [.c, .cpp]⟩,
  ⟨"explicit", .kwExplicit, [.cpp]⟩,
  ⟨"export", .kwExport, [.cpp]⟩,
  ⟨"extern", .kwExtern, [.c, .cpp]⟩,
  ⟨"false", .kwFalse, [.cpp]⟩,
  ⟨"float", .kwFloat, [.c, .cpp]⟩,
  ⟨"for", .kwFor, [.c, .cpp]⟩,
  ⟨"friend", .kwFriend, [.cpp]⟩,
  ⟨"goto", .kwGoto, [.c, .cpp]⟩,
  ⟨"if", .kwIf, [.c, .cpp]⟩,
  ⟨"inline", .kwInline, [.c, .cpp]⟩,
  ⟨"int", .kwInt, [.c, .cpp]⟩,
  ⟨"long", .kwLong, [.c, .cpp]⟩,
  ⟨"mutable", .kwMutable, [.cpp]⟩,
  ⟨"namespace", .kwNamespace, [.cpp]⟩,
  ⟨"new", .kwNew, [.cpp]⟩,
  ⟨"noexcept", .kwNoexcept, [.cpp]⟩,
  ⟨"nullptr", .kwNullptr, [.cpp]⟩,
  ⟨"operator", .kwOperator, [.cpp]⟩,
  ⟨"private", .kwPrivate, [.cpp]⟩,
  ⟨"protected", .kwProtected, [.cpp]⟩,
  ⟨"public", .kwPublic, [.cpp]⟩,
  ⟨"register", .kwRegister, [.c, .cpp]⟩,
  ⟨"reinterpret_cast", .kwReinterpretCast, [.cpp]⟩,
  ⟨"restrict", .kwRestrict, [.c]⟩,
  ⟨"return", .kwReturn, [.c, .cpp]⟩,
  ⟨"short", .kwShort, [.c, .cpp]⟩,
  ⟨"signed", .kwSigned, [.c, .cpp]⟩,
  ⟨"sizeof", .kwSizeof, [.c, .cpp]⟩,
  ⟨"static", .kwStatic, [.c, .cpp]⟩,
  ⟨"static_assert", .kwStaticAssert, [.cpp]⟩,
  ⟨"_Static_assert", .kwStaticAssert, [.c]⟩,
  ⟨"static_cast", .kwStaticCast, [.cpp]⟩,
  ⟨"struct", .kwStruct, [.c, .cpp]⟩,
  ⟨"switch", .kwSwitch, [.c, .cpp]⟩,
  ⟨"template", .kwTemplate, [.cpp]⟩,
  ⟨"this", .kwThis, [.cpp]⟩,
  ⟨"thread_local", .kwThreadLocal, [.cpp]⟩,
  ⟨"_Thread_local", .kwThreadLocal, [.c]⟩,
  ⟨"throw", .kwThrow, [.cpp]⟩,
  ⟨"true", .kwTrue, [.cpp]⟩,
  ⟨"try", .kwTry, [.cpp]⟩,
  ⟨"typedef", .kwTypedef, [.c, .cpp]⟩,
  ⟨"typeid", .kwTypeid, [.cpp]⟩,
  ⟨"typename", .kwTypename, [.cpp]⟩,
  ⟨"union", .kwUnion, [.c, .cpp]⟩,
  ⟨"unsigned", .kwUnsigned, [.c, .cpp]⟩,
  ⟨"using", .kwUsing, [.cpp]⟩,
  ⟨"virtual", .kwVirtual, [.cpp]⟩,
  ⟨"void", .kwVoid, [.c, .cpp]⟩,
  ⟨"volatile", .kwVolatile, [.c, .cpp]⟩,
  ⟨"wchar_t", .kwWcharT, [.cpp]⟩,
  ⟨"while", .kwWhile, [.c, .cpp]⟩]

def Keyword.ofWord? (word : String) (language : Language) : Option Keyword :=
  match reservedWords.find? fun entry => entry.spelling == word with
  | some entry => if language ∈ entry.languages then some entry.keyword else none
  | none => none

def Keyword.introducesType : Keyword → Bool
  | .kwStruct | .kwUnion | .kwClass | .kwEnum => true
  | _ => false

end DeclScan
