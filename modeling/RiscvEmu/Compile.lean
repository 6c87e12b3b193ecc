import RiscvEmu.Cache

/-!
# Linking the compiled code

`machine_compile` from the object file on. The compiler leaves a relocatable object in
`elfbuf`; the linker looks for its sections, puts the code and one section of read-only
data into the cache, and applies the relocations of the code.

Addresses in the cache are distances from the start of `jitcode`. Every value that the
linker computes is a difference of two of them, so the start does not matter.
-/

set_option autoImplicit false

namespace RiscvEmu

/-! ## The object file -/

/-- The fields of `elf64_shdr_t` that the linker reads. -/
structure Shdr where
  name : U32
  offset : U64
  size : U64
  addralign : U64
  deriving DecidableEq

/-- `elf64_sym_t`, without the fields for the name, the kind and the size. -/
structure Sym where
  shndx : U16
  value : U64
  deriving DecidableEq

/-- `elf64_rela_t`. -/
structure Rela where
  offset : U64
  type : U32
  sym : U32
  addend : U64
  deriving DecidableEq

/-- `R_X86_64_PC32`. -/
def rX8664Pc32 : U32 := 2

section Object

variable (elfbuf : Bytes.Memory)

/-- `ehdr->e_shnum`. -/
def shnum : U16 := Bytes.load elfbuf 60 16

/-- The section header at an index. -/
def shdrAt (idx : Nat) : Shdr :=
  let shoff := Bytes.load elfbuf 40 64 + BitVec.ofNat 64 (idx * 64)
  { name := Bytes.load elfbuf shoff 32
    offset := Bytes.load elfbuf (shoff + 24) 64
    size := Bytes.load elfbuf (shoff + 32) 64
    addralign := Bytes.load elfbuf (shoff + 48) 64 }

/-- The address of the name of a section. -/
def sectionStr (idx : Nat) : U64 :=
  let shstrShdr := shdrAt elfbuf (Bytes.load elfbuf 62 16 : U16).toNat
  shstrShdr.offset + (shdrAt elfbuf idx).name.setWidth 64

/-- The bytes of a section. -/
def sectionBytes (shdr : Shdr) : List U8 := Bytes.block elfbuf shdr.offset shdr.size.toNat

/-- The entries of a section of relocations. -/
def relaEntries (shdr : Shdr) : List Rela :=
  (List.range (shdr.size.toNat / 24)).map fun idx =>
    let rel := shdr.offset + BitVec.ofNat 64 (idx * 24)
    { offset := Bytes.load elfbuf rel 64
      type := Bytes.load elfbuf (rel + 8) 32
      sym := Bytes.load elfbuf (rel + 12) 32
      addend := Bytes.load elfbuf (rel + 16) 64 }

/-- The symbol at an index of a symbol table. -/
def symAt (shdr : Shdr) (idx : U32) : Sym :=
  let sym := shdr.offset + idx.setWidth 64 * 24
  { shndx := Bytes.load elfbuf (sym + 6) 16
    value := Bytes.load elfbuf (sym + 8) 64 }

/-- The characters of a name as bytes. -/
def chars (text : List Char) : List U8 := text.map fun c => BitVec.ofNat 8 c.toNat

/-- `strcmp(str, text) == 0`. -/
def strEq (str : U64) (text : List U8) : Bool :=
  Bytes.block elfbuf str (text.length + 1) == text ++ [0]

/-- `strncmp(str, text, strlen(text)) == 0`. -/
def strPrefix (str : U64) (text : List U8) : Bool := Bytes.block elfbuf str text.length == text

end Object

/-- `".text"`, `".rela.text"`, `".symtab"` and `".rodata."`. -/
def textName : List U8 := chars ['.', 't', 'e', 'x', 't']
def relaName : List U8 := chars ['.', 'r', 'e', 'l', 'a', '.', 't', 'e', 'x', 't']
def symtabName : List U8 := chars ['.', 's', 'y', 'm', 't', 'a', 'b']
def rodataPrefix : List U8 := chars ['.', 'r', 'o', 'd', 'a', 't', 'a', '.']

/-! ## `machine_compile` -/

/-- `text_idx`, `symtab_idx`, `rela_idx` and `rodata_idx`. -/
structure SectionIdxs where
  text : Nat := 0
  symtab : Nat := 0
  rela : Nat := 0
  rodata : Nat := 0
  deriving DecidableEq

section Compile

variable (elfbuf : Bytes.Memory)

/-- One round of the loop over the sections. -/
def scanSection (found : SectionIdxs) (idx : Nat) : SectionIdxs :=
  let str := sectionStr elfbuf idx
  { text := if strEq elfbuf str textName then idx else found.text
    rela := if strEq elfbuf str relaName then idx else found.rela
    rodata := if strPrefix elfbuf str rodataPrefix then idx else found.rodata
    symtab := if strEq elfbuf str symtabName then idx else found.symtab }

/-- The section scan. -/
def scanSections : Except Abort SectionIdxs := do
  cassert (shnum elfbuf ≠ 0) "ehdr->e_shnum != 0"
  let found := (List.range (shnum elfbuf).toNat).foldl (scanSection elfbuf) {}
  cassert (found.text ≠ 0 ∧ found.symtab ≠ 0) "text_idx != 0 && symtab_idx != 0"
  return found

/-- The part that puts sections into the cache: the read-only data, unless there is none
or nothing to relocate, and the code. -/
def placeSections (cache : Cache) (pc : U64) (found : SectionIdxs) :
    Except Abort (Option U64 × U64 × Cache) := do
  let text := shdrAt elfbuf found.text
  if found.rela = 0 ∨ found.rodata = 0 then
    let (textAddr, cache) ← cacheAdd cache pc (sectionBytes elfbuf text) text.addralign
    return (none, textAddr, cache)
  else
    let rodata := shdrAt elfbuf found.rodata
    let (rodataAddr, cache) ← cacheAdd cache pc (sectionBytes elfbuf rodata) rodata.addralign
    let (textAddr, cache) ← cacheAdd cache pc (sectionBytes elfbuf text) text.addralign
    return (some rodataAddr, textAddr, cache)

/-- One round of the relocation loop. -/
def relocate (symtab : Shdr) (textAddr rodataAddr : U64) (jitcode : Bytes.Memory) (rel : Rela) :
    Except Abort Bytes.Memory := do
  cassert (rel.type = rX8664Pc32) "rel->r_type == R_X86_64_PC32"
  let sym := symAt elfbuf symtab rel.sym
  let loc := textAddr + rel.offset
  let s := rodataAddr + sym.value
  let p := textAddr + rel.offset
  let a := rel.addend
  let jitcode := Bytes.store jitcode loc ((s + a - p).setWidth 32)
  let ripAddr := p - a
  cassert (ripAddr + (Bytes.load jitcode loc 32).signExtend 64 = s) "rip_addr + *(i32 *)loc == S"
  return jitcode

/-- `machine_compile`, with the object in `elfbuf`. -/
def machineCompile (cache : Cache) (pc : U64) : Except Abort (U64 × Cache) := do
  let found ← scanSections elfbuf
  let (rodataAddr, textAddr, cache) ← placeSections elfbuf cache pc found
  match rodataAddr with
  | none => return (textAddr, cache)
  | some rodataAddr =>
      let rela := shdrAt elfbuf found.rela
      let symtab := shdrAt elfbuf found.symtab
      let jitcode ← (relaEntries elfbuf rela).foldlM (relocate elfbuf symtab textAddr rodataAddr)
        cache.jitcode
      return (textAddr, { cache with jitcode := jitcode })

end Compile

end RiscvEmu
