import Atmosphere.Util.Alignment
import Atmosphere.Kern.MemoryBlock
import Atmosphere.Kern.MemoryBlockTree
import Atmosphere.Kern.Classification
import Atmosphere.Kern.AddressMap
import Atmosphere.Kern.RandomRegion
import Atmosphere.Kern.CoreLocalRegion
import Atmosphere.Kern.PoolPartition
import Atmosphere.Kern.PoolBoundaries
import Atmosphere.Kern.PoolPartitionMap
import Atmosphere.Kern.MemoryLayout
import Atmosphere.Util.Atomic
import Atmosphere.Os.Semaphore
import Atmosphere.Fs.FileStorage
import Atmosphere.Fs.SizeCache
import Atmosphere.Fssystem.PooledBuffer
import Atmosphere.Fssystem.BufferPool
import Atmosphere.Lr.LocationResolver
