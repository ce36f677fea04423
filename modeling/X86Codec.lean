import X86Codec.Word
import X86Codec.Position
import X86Codec.Text.Blank
import X86Codec.Text.Printable
import X86Codec.Text.Case
import X86Codec.Text.Quoted
import X86Codec.Text.Bounded
import X86Codec.Failure
import X86Codec.Listing.Operand
import X86Codec.Listing.Layout
import X86Codec.Listing.SizeSet
import X86Codec.Listing.Descriptor
import X86Codec.Listing.Opcode
import X86Codec.Listing.Data
import X86Codec.Listing.Entry
import X86Codec.DecodeTable.Trie
import X86Codec.DecodeTable.Names
import X86Codec.DecodeTable.Build
import X86Codec.EncodeTable.Build
import X86Codec.Decoder.Instr
import X86Codec.Decoder.Tables
import X86Codec.Decoder.Decode
import X86Codec.Decoder.Format
import X86Codec.Encoder.Tables
import X86Codec.Encoder.Encode
import X86Codec.Encoder.OpcodeSize
import X86Codec.CommandLine
import X86Codec.Main
import X86Codec.Proofs.SizeSet
import X86Codec.Proofs.Layout
import X86Codec.Proofs.DescriptorWords
import X86Codec.Proofs.WindowPrefix
import X86Codec.Proofs.PrefixClosed
import X86Codec.Proofs.TrieWalk
import X86Codec.Proofs.TrieCopy
import X86Codec.Proofs.TrieAdd
import X86Codec.Proofs.TrieMerge
import X86Codec.Proofs.TrieImage
import X86Codec.Proofs.WindowReads
import X86Codec.Proofs.TrieFailure
import X86Codec.Proofs.TrieUpdate
import X86Codec.Proofs.EncodeWrites
import X86Codec.Proofs.RegisterNames
import X86Codec.Proofs.OperandNames
import X86Codec.Proofs.PatternKeys
import X86Codec.Proofs.TableSelection
import X86Codec.Proofs.TableWords
import X86Codec.Proofs.BuiltTables
import X86Codec.Proofs.PriorContents
import X86Codec.Proofs.JumpLengths
import X86Codec.Proofs.LayoutWords
import X86Codec.Proofs.TrieNoted
import X86Codec.Proofs.MergeNormal
import X86Codec.Proofs.AfterPrefixes
import X86Codec.Proofs.PrefixOrder
import X86Codec.Proofs.LowRegisters
import X86Codec.Proofs.NameTableText
import X86Codec.Proofs.MemoryText
import X86Codec.Proofs.TruncatedText
import X86Codec.Proofs.KnownAddress
import X86Codec.Proofs.TrieShape
import X86Codec.Proofs.EncodeChains
import X86Codec.Proofs.EncodeDescs
import X86Codec.Proofs.EncodeFields
import X86Codec.Proofs.WordOpening
import X86Codec.Proofs.EncodedBytes
import X86Codec.Proofs.ReadBack
import X86Codec.Proofs.WideRegisters
import X86Codec.Proofs.Pairing
import X86Codec.Proofs.ReadStages
import X86Codec.Proofs.RoundTrip
import X86Codec.Proofs.EncodeDecode
