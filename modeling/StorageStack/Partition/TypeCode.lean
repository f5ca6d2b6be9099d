/-! # Partition type codes

The codes that boot sector entries use for the kind of a partition's contents, as far
as the storage stack tells them apart.
-/

namespace StorageStack.TypeCode

def empty : UInt8 := 0x00

def fat12 : UInt8 := 0x01

def fat16Small : UInt8 := 0x04

def extendedChs : UInt8 := 0x05

def fat16 : UInt8 := 0x06

def fat32Chs : UInt8 := 0x0B

def fat32Lba : UInt8 := 0x0C

def fat16Lba : UInt8 := 0x0E

def extendedLba : UInt8 := 0x0F

/-- The letter `L`, used for littlefs partitions. -/
def littleFs : UInt8 := 0x4C

def linux : UInt8 := 0x83

def extendedLinux : UInt8 := 0x85

/-- Whether an entry of this code is a container of further partitions. -/
def isExtended (code : UInt8) : Bool :=
  code == extendedChs || code == extendedLba || code == extendedLinux

/-- Whether the code belongs to the FAT family. -/
def isFat (code : UInt8) : Bool :=
  code == fat12 || code == fat16Small || code == fat16 || code == fat32Chs || code == fat32Lba ||
    code == fat16Lba

end StorageStack.TypeCode
